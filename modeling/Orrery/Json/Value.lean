import Orrery.Json.Token

/-!
# JSON values

Numbers are kept as they are written, since integers and floating-point numbers are read off them
by different rules, and objects keep all fields in order, repeated ones included.  `Value.parse?`
reads a text that consists of exactly one value, and `Value.render` writes a value without any
blanks.

Reading is the work of a small machine: a stack of the arrays and objects that are open, and what
may come next.  It copes with any depth of nesting.
-/

namespace Orrery.Json

/-- A JSON value. -/
inductive Value where
  | null
  /-- A truth value. -/
  | bool (b : Bool)
  /-- A number, as it is written. -/
  | num (chars : List Char)
  | str (t : Text)
  | arr (items : List Value)
  /-- An object; its fields are in the order in which they are written. -/
  | obj (fields : List (Text × Value))

/-- An array or object that is still open, with what it holds so far, last one first. -/
inductive Frame where
  | arr (items : List Value)
  /-- An object, between two fields. -/
  | obj (fields : List (Text × Value))
  /-- An object, within the field of the given name. -/
  | field (fields : List (Text × Value)) (key : Text)

/-- What may come next. -/
inductive Turn where
  | value
  /-- A value, or the end of an array without items. -/
  | item
  | key
  /-- The name of a field, or the end of an object without fields. -/
  | firstKey
  /-- The colon after the name of a field. -/
  | colon
  /-- A comma, or the end of the innermost array or object. -/
  | rest
  | nothing (v : Value)

/-- A value that has been read in part. -/
structure Build where
  /-- The open arrays and objects, innermost first. -/
  frames : List Frame := []
  /-- What may come next. -/
  turn : Turn := .value

namespace Build

/-- Puts a complete value where it belongs. -/
def put? (frames : List Frame) (v : Value) : Option Build :=
  match frames with
  | [] => some ⟨[], .nothing v⟩
  | .arr items :: fs => some ⟨.arr (v :: items) :: fs, .rest⟩
  | .field fields key :: fs => some ⟨.obj ((key, v) :: fields) :: fs, .rest⟩
  | .obj _ :: _ => none

/-- Takes the first token of a value. -/
def open? (b : Build) (t : Token) : Option Build :=
  match t with
  | .leftBracket => some ⟨.arr [] :: b.frames, .item⟩
  | .leftBrace => some ⟨.obj [] :: b.frames, .firstKey⟩
  | .null => put? b.frames .null
  | .bool x => put? b.frames (.bool x)
  | .num cs => put? b.frames (.num cs)
  | .str s => put? b.frames (.str s)
  | _ => none

/-- Closes the innermost array or object. -/
def close? (b : Build) (t : Token) : Option Build :=
  match t, b.frames with
  | .rightBracket, .arr items :: fs => put? fs (.arr items.reverse)
  | .rightBrace, .obj fields :: fs => put? fs (.obj fields.reverse)
  | _, _ => none

/-- Takes the name of a field. -/
def name? (b : Build) (t : Token) : Option Build :=
  match t, b.frames with
  | .str key, .obj fields :: fs => some ⟨.field fields key :: fs, .colon⟩
  | _, _ => none

/-- What comes after a comma within the innermost array or object. -/
def afterComma (b : Build) : Build :=
  match b.frames with
  | .obj _ :: _ => { b with turn := .key }
  | _ => { b with turn := .value }

/-- Takes one token. -/
def step? (b : Build) (t : Token) : Option Build :=
  match b.turn with
  | .value => b.open? t
  | .item => if t = .rightBracket then b.close? t else b.open? t
  | .key => b.name? t
  | .firstKey => if t = .rightBrace then b.close? t else b.name? t
  | .colon => if t = .colon then some { b with turn := .value } else none
  | .rest => if t = .comma then some b.afterComma else b.close? t
  | .nothing _ => none

/-- The value at the end of the text. -/
def finish? (b : Build) : Option Value :=
  match b.turn with
  | .nothing v => some v
  | _ => none

end Build

namespace Value

/-- The value that a sequence of tokens spells. -/
def ofTokens? (tokens : List Token) : Option Value := do
  (← tokens.foldlM Build.step? {}).finish?

/-- Reads a text that consists of one value. -/
def parse? (text : String) : Option Value := (Token.scan? text.toList).bind ofTokens?

/-! ### Writing -/

mutual

/-- The tokens of a value. -/
def tokens : Value → List Token
  | null => [.null]
  | bool b => [.bool b]
  | num cs => [.num cs]
  | str t => [.str t]
  | arr items => .leftBracket :: (itemTokens items ++ [.rightBracket])
  | obj fields => .leftBrace :: (fieldTokens fields ++ [.rightBrace])

/-- The tokens of the items of an array. -/
def itemTokens : List Value → List Token
  | [] => []
  | [v] => v.tokens
  | v :: w :: vs => v.tokens ++ .comma :: itemTokens (w :: vs)

/-- The tokens of the fields of an object. -/
def fieldTokens : List (Text × Value) → List Token
  | [] => []
  | [(key, v)] => .str key :: .colon :: v.tokens
  | (key, v) :: f :: fs => .str key :: .colon :: (v.tokens ++ .comma :: fieldTokens (f :: fs))

end

/-- The text of a value, without blanks. -/
def render (v : Value) : String := String.ofList (v.tokens.flatMap Token.chars)

end Value

end Orrery.Json
