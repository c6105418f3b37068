import Orrery.Decimal.Numeral

/-!
# Tokens of JSON

A JSON text is a sequence of punctuation marks, quoted strings and plain words, with blanks
between them.  A plain word is one of the three literals or a numeral.  `Token.scan?` splits a
text into tokens, character by character; `Token.chars` writes one token.

A string may spell UTF-16 surrogates that do not form a pair.  Such a string is no text, but it is
not a fault of spelling either: it is marked as not whole, and whoever needs its content refuses it.
-/

namespace Orrery.Json

/-- A string of a JSON text. -/
structure Text where
  content : String
  /-- Whether nothing is missing from them; a surrogate without a partner is. -/
  whole : Bool := true
deriving DecidableEq, Repr

/-- The smallest parts of a JSON text. -/
inductive Token where
  | leftBracket
  | rightBracket
  | leftBrace
  | rightBrace
  /-- The mark between a name and its value. -/
  | colon
  /-- The mark between items. -/
  | comma
  | null
  /-- A truth value. -/
  | bool (b : Bool)
  /-- A number, as it is written. -/
  | num (chars : List Char)
  | str (t : Text)
deriving DecidableEq, Repr

namespace Token

/-! ### Writing -/

/-- A hexadecimal digit, in lower case. -/
def hexDigit (n : Nat) : Char := if n < 10 then Char.ofNat (48 + n) else Char.ofNat (87 + n)

/-- A character as it is written within quotes. -/
def escaped (c : Char) : List Char :=
  if c = '"' then ['\\', '"']
  else if c = '\\' then ['\\', '\\']
  else if c = '\n' then ['\\', 'n']
  else if c = '\r' then ['\\', 'r']
  else if c = '\t' then ['\\', 't']
  else if c.toNat = 8 then ['\\', 'b']
  else if c.toNat = 12 then ['\\', 'f']
  else if c.toNat < 32 then
    ['\\', 'u', '0', '0', hexDigit (c.toNat / 16), hexDigit (c.toNat % 16)]
  else [c]

/-- A string in quotes. -/
def quoted (s : String) : List Char := '"' :: (s.toList.flatMap escaped ++ ['"'])

/-- The characters of a token. -/
def chars : Token → List Char
  | leftBracket => ['[']
  | rightBracket => [']']
  | leftBrace => ['\x7b']
  | rightBrace => ['\x7d']
  | colon => [':']
  | comma => [',']
  | null => ['n', 'u', 'l', 'l']
  | bool true => ['t', 'r', 'u', 'e']
  | bool false => ['f', 'a', 'l', 's', 'e']
  | num cs => cs
  | str t => quoted t.content

/-! ### Reading -/

/-- Whether a character may stand between tokens. -/
def isBlank (c : Char) : Bool := c = ' ' || c = '\n' || c = '\r' || c = '\t'

/-- The punctuation mark that a character is. -/
def mark? : Char → Option Token
  | '[' => some leftBracket
  | ']' => some rightBracket
  | '\x7b' => some leftBrace
  | '\x7d' => some rightBrace
  | ':' => some colon
  | ',' => some comma
  | _ => none

/-- The literal or number that a plain word is. -/
def ofWord? (word : List Char) : Option Token :=
  if word = ['n', 'u', 'l', 'l'] then some null
  else if word = ['t', 'r', 'u', 'e'] then some (bool true)
  else if word = ['f', 'a', 'l', 's', 'e'] then some (bool false)
  else (Numeral.parse? word).map fun _ => num word

/-- A string that has been read in part. -/
structure Quote where
  /-- The characters so far, last one first. -/
  read : List Char := []
  /-- Whether no surrogate has been found without a partner. -/
  whole : Bool := true
  /-- The first half of a surrogate pair, if it was the last thing read. -/
  high : Option Nat := none
deriving DecidableEq, Repr

namespace Quote

/-- Appends a character. -/
def push (q : Quote) (c : Char) : Quote := ⟨c :: q.read, q.whole && q.high.isNone, none⟩

/-- Appends a UTF-16 unit.  Two halves of a surrogate pair make one character. -/
def pushUnit (q : Quote) (unit : Nat) : Quote :=
  if 0xD800 ≤ unit ∧ unit < 0xDC00 then ⟨q.read, q.whole && q.high.isNone, some unit⟩
  else if 0xDC00 ≤ unit ∧ unit < 0xE000 then
    match q.high with
    | none => { q with whole := false }
    | some high =>
      ⟨Char.ofNat (0x10000 + (high - 0xD800) * 0x400 + (unit - 0xDC00)) :: q.read, q.whole, none⟩
  else q.push (Char.ofNat unit)

/-- The string at the closing quotation mark. -/
def close (q : Quote) : Text := ⟨String.ofList q.read.reverse, q.whole && q.high.isNone⟩

end Quote

/-- What the reader is in the midst of. -/
inductive Mode where
  | between
  /-- A plain word, last character first. -/
  | word (read : List Char)
  | quote (q : Quote)
  /-- A string, after a backslash. -/
  | escape (q : Quote)
  /-- A UTF-16 unit within a string, with so many digits to come. -/
  | unit (q : Quote) (left : Nat) (value : Nat)
deriving DecidableEq, Repr

/-- The tokens so far, last one first, and what is being read. -/
structure Scan where
  tokens : List Token := []
  /-- What is being read. -/
  mode : Mode := .between
deriving DecidableEq, Repr

/-- The character that a backslash and `c` stand for. -/
def unescaped? : Char → Option Char
  | '"' => some '"'
  | '\\' => some '\\'
  | '/' => some '/'
  | 'b' => some (Char.ofNat 8)
  | 'f' => some (Char.ofNat 12)
  | 'n' => some '\n'
  | 'r' => some '\r'
  | 't' => some '\t'
  | _ => none

/-- The value of a hexadecimal digit. -/
def hexValue? (c : Char) : Option Nat :=
  if c.isDigit then some (c.toNat - 48)
  else if 'a' ≤ c ∧ c ≤ 'f' then some (c.toNat - 87)
  else if 'A' ≤ c ∧ c ≤ 'F' then some (c.toNat - 55)
  else none

namespace Scan

/-- Adds a token, after which nothing is being read. -/
def add (s : Scan) (t : Token) : Scan := ⟨t :: s.tokens, .between⟩

/-- Ends a plain word, if one is being read. -/
def endWord? (s : Scan) : Option Scan :=
  match s.mode with
  | .word read => (ofWord? read.reverse).map s.add
  | _ => some s

/-- Takes a character that stands between tokens or within a plain word. -/
def plain? (s : Scan) (c : Char) : Option Scan :=
  if isBlank c then s.endWord?
  else if c = '"' then s.endWord?.map fun s => { s with mode := .quote {} }
  else
    match mark? c with
    | some t => s.endWord?.map (·.add t)
    | none =>
      match s.mode with
      | .word read => some { s with mode := .word (c :: read) }
      | _ => some { s with mode := .word [c] }

/-- Takes one character. -/
def step? (s : Scan) (c : Char) : Option Scan :=
  match s.mode with
  | .between => s.plain? c
  | .word _ => s.plain? c
  | .quote q =>
    if c = '"' then some (s.add (.str q.close))
    else if c = '\\' then some { s with mode := .escape q }
    else if c.toNat < 32 then none
    else some { s with mode := .quote (q.push c) }
  | .escape q =>
    if c = 'u' then some { s with mode := .unit q 4 0 }
    else (unescaped? c).map fun c => { s with mode := .quote (q.push c) }
  | .unit q left value =>
    match hexValue? c with
    | none => none
    | some d =>
      let value := 16 * value + d
      if left ≤ 1 then some { s with mode := .quote (q.pushUnit value) }
      else some { s with mode := .unit q (left - 1) value }

/-- The tokens at the end of the text. -/
def finish? (s : Scan) : Option (List Token) :=
  match s.endWord? with
  | some ⟨tokens, .between⟩ => some tokens.reverse
  | _ => none

end Scan

/-- The tokens of a text. -/
def scan? (text : List Char) : Option (List Token) := do
  (← text.foldlM Scan.step? {}).finish?

end Token

end Orrery.Json
