import Orrery.Json.Record
import Orrery.Proofs.Numeral

/-!
# JSON values read back

The text of a value reads back as that value (`Value.parse?_render`), if every numeral in it is one
and nothing is missing from its strings.  The two layers of the reader undo the two layers of the
writer: the characters of a value are scanned into its tokens (`Value.scans_tokens`), and these are
built into the value (`Value.builds_tokens`).
-/

namespace Orrery.Json

/-- What holds of a value if it holds of its items or of the values of its fields holds of all
values. -/
theorem Value.induction {P : Value → Prop} (hnull : P .null) (hbool : ∀ b, P (.bool b))
    (hnum : ∀ cs, P (.num cs)) (hstr : ∀ t, P (.str t))
    (harr : ∀ items, (∀ v ∈ items, P v) → P (.arr items))
    (hobj : ∀ fields, (∀ f ∈ fields, P f.2) → P (.obj fields)) (v : Value) : P v :=
  @Value.rec P (fun items => ∀ v ∈ items, P v) (fun fields => ∀ f ∈ fields, P f.2)
    (fun f => P f.2) hnull hbool hnum hstr harr hobj
    (by simp) (fun _ _ hv hvs => List.forall_mem_cons.mpr ⟨hv, hvs⟩)
    (by simp) (fun _ _ hf hfs => List.forall_mem_cons.mpr ⟨hf, hfs⟩) (fun _ _ h => h) v

/-! ### From characters to tokens -/

namespace Token

open Scan (step?)

/-- The tokens are read off their own characters, whatever stands before. -/
def Scans (ts : List Token) : Prop :=
  ∀ s : Scan, s.mode = .between → ∃ s', (ts.flatMap chars).foldlM step? s = some s' ∧
    s'.endWord? = some ⟨ts.reverse ++ s.tokens, .between⟩

/-- Whether a token is a punctuation mark. -/
def IsMark (t : Token) : Prop := ∃ c, t.chars = [c] ∧ mark? c = some t

theorem scans_nil : Scans [] := fun s hs => ⟨s, rfl, by
  obtain ⟨tokens, mode⟩ := s
  cases hs
  rfl⟩

/-- A mark ends the word before it, if there is one. -/
theorem step?_mark {s s' : Scan} {t : Token} {c : Char} (hmark : mark? c = some t)
    (hs : s.endWord? = some s') (hbetween : s'.mode = .between) : step? s c = some (s'.add t) := by
  have hplain : s.plain? c = some (s'.add t) := by
    have hblank : isBlank c = false := by
      unfold mark? at hmark
      split at hmark <;> first | rfl | cases hmark
    have hquote : c ≠ '"' := by
      rintro rfl
      cases hmark
    rw [Scan.plain?, hblank, if_neg (by decide), if_neg hquote, hmark, hs]
    rfl
  cases hmode : s.mode with
  | between | word => rw [step?, hmode]; exact hplain
  | quote | escape | unit =>
    rw [Scan.endWord?, hmode] at hs
    cases hs
    rw [hbetween] at hmode
    cases hmode

theorem Scans.append {ts us : List Token} {t : Token} (hts : Scans ts) (ht : IsMark t)
    (hus : Scans us) : Scans (ts ++ t :: us) := by
  intro s hs
  obtain ⟨s', hfold, hend⟩ := hts s hs
  obtain ⟨c, hc, hmark⟩ := ht
  obtain ⟨s'', hfold', hend'⟩ := hus ⟨t :: (ts.reverse ++ s.tokens), .between⟩ rfl
  refine ⟨s'', ?_, by rw [hend']; simp⟩
  rw [List.flatMap_append, List.flatMap_cons, hc, List.foldlM_append, hfold, Option.bind_eq_bind,
    Option.bind_some, List.singleton_append, List.foldlM_cons, step?_mark hmark hend rfl]
  exact hfold'

theorem Scans.cons {us : List Token} {t : Token} (ht : IsMark t) (hus : Scans us) :
    Scans (t :: us) := scans_nil.append ht hus

theorem Scans.concat {ts : List Token} {t : Token} (hts : Scans ts) (ht : IsMark t) :
    Scans (ts ++ [t]) := hts.append ht scans_nil

/-! #### Words -/

/-- Whether a character may stand within a plain word. -/
def isPlain (c : Char) : Bool := !isBlank c && c != '"' && (mark? c).isNone

theorem foldlM_step?_word {cs : List Char} (h : ∀ c ∈ cs, isPlain c = true) (tokens : List Token)
    (read : List Char) :
    cs.foldlM step? ⟨tokens, .word read⟩ = some ⟨tokens, .word (cs.reverse ++ read)⟩ := by
  induction cs generalizing read with
  | nil => rfl
  | cons c cs ih =>
    obtain ⟨hc, hcs⟩ := List.forall_mem_cons.mp h
    simp only [isPlain, Bool.and_eq_true, Bool.not_eq_true', bne_iff_ne,
      Option.isNone_iff_eq_none] at hc
    obtain ⟨⟨hblank, hquote⟩, hmark⟩ := hc
    have hstep : step? ⟨tokens, .word read⟩ c = some ⟨tokens, .word (c :: read)⟩ := by
      simp [step?, Scan.plain?, hblank, hquote, hmark]
    rw [List.foldlM_cons, hstep, Option.bind_eq_bind, Option.bind_some, ih hcs]
    simp

theorem scans_word {t : Token} {cs : List Char} (hchars : t.chars = cs) (hne : cs ≠ [])
    (hplain : cs.all isPlain = true) (hword : ofWord? cs = some t) : Scans [t] := by
  rintro ⟨tokens, mode⟩ rfl
  obtain ⟨c, rest, rfl⟩ := List.exists_cons_of_ne_nil hne
  obtain ⟨hc, hrest⟩ := List.forall_mem_cons.mp (List.all_eq_true.mp hplain)
  simp only [isPlain, Bool.and_eq_true, Bool.not_eq_true', bne_iff_ne,
    Option.isNone_iff_eq_none] at hc
  obtain ⟨⟨hblank, hquote⟩, hmark⟩ := hc
  have hstep : step? ⟨tokens, .between⟩ c = some ⟨tokens, .word [c]⟩ := by
    simp [step?, Scan.plain?, hblank, hquote, hmark]
  refine ⟨⟨tokens, .word (rest.reverse ++ [c])⟩, ?_, ?_⟩
  · rw [List.flatMap_cons, List.flatMap_nil, List.append_nil, hchars, List.foldlM_cons, hstep]
    exact foldlM_step?_word hrest tokens [c]
  · simp [Scan.endWord?, hword, Scan.add]

theorem isPlain_of_isChar {c : Char} (h : Numeral.isChar c = true) : isPlain c = true := by
  have hmark : mark? c = none := by
    unfold mark?
    split <;> first | rfl | contradiction
  have hblank : isBlank c = false := by
    by_contra hblank
    simp only [isBlank, Bool.not_eq_false, Bool.or_eq_true, decide_eq_true_eq] at hblank
    rcases hblank with ((rfl | rfl) | rfl) | rfl <;> contradiction
  have hquote : c ≠ '"' := by
    rintro rfl
    contradiction
  simp [isPlain, hblank, hquote, hmark]

theorem scans_num {cs : List Char} {n : Numeral} (h : Numeral.parse? cs = some n) :
    Scans [.num cs] := by
  have hchars := Numeral.isChar_of_parse? h
  have hplain : ∀ c ∈ cs, isPlain c = true := fun c hc => isPlain_of_isChar (hchars c hc)
  refine scans_word rfl (Numeral.ne_nil_of_parse? h) (List.all_eq_true.mpr hplain) ?_
  -- no literal is a numeral
  have hliteral : ∀ c rest, Numeral.isChar c = false → cs ≠ c :: rest := by
    rintro c rest hc rfl
    rw [hchars c (List.mem_cons_self ..)] at hc
    cases hc
  show ofWord? cs = some (num cs)
  rw [ofWord?, if_neg (hliteral _ _ rfl), if_neg (hliteral _ _ rfl), if_neg (hliteral _ _ rfl), h]
  rfl

/-! #### Strings -/

theorem hexValue?_hexDigit {n : Nat} (h : n < 16) : hexValue? (hexDigit n) = some n := by
  have hall : ∀ n < 16, hexValue? (hexDigit n) = some n := by decide
  exact hall n h

/-- A control character is spelt by its number. -/
theorem foldlM_step?_unit {c : Char} (h : c.toNat < 32) (tokens : List Token) (q : Quote) :
    ['\\', 'u', '0', '0', hexDigit (c.toNat / 16), hexDigit (c.toNat % 16)].foldlM step?
      ⟨tokens, .quote q⟩ = some ⟨tokens, .quote (q.push c)⟩ := by
  have hhigh := hexValue?_hexDigit (n := c.toNat / 16) (by omega)
  have hlow := hexValue?_hexDigit (n := c.toNat % 16) (by omega)
  have hzero : hexValue? '0' = some 0 := rfl
  have hvalue : 16 * (c.toNat / 16) + c.toNat % 16 = c.toNat := by omega
  have hpush : q.pushUnit c.toNat = q.push c := by
    rw [Quote.pushUnit, if_neg (by omega), if_neg (by omega), Char.ofNat_toNat]
  simp [step?, hzero, hhigh, hlow, hvalue, hpush]

theorem foldlM_step?_escaped (c : Char) (tokens : List Token) (q : Quote) :
    (escaped c).foldlM step? ⟨tokens, .quote q⟩ = some ⟨tokens, .quote (q.push c)⟩ := by
  have hof : ∀ n, c.toNat = n → c = Char.ofNat n := by
    rintro _ rfl
    exact (Char.ofNat_toNat c).symm
  unfold escaped
  split
  · next h => subst h; rfl
  split
  · next h => subst h; rfl
  split
  · next h => subst h; rfl
  split
  · next h => subst h; rfl
  split
  · next h => subst h; rfl
  split
  · next h => rw [hof 8 h]; rfl
  split
  · next h => rw [hof 12 h]; rfl
  split
  · next h => exact foldlM_step?_unit h tokens q
  · next hquote hbackslash _ _ _ _ _ hcontrol =>
    simp [step?, hquote, hbackslash, hcontrol]

theorem foldlM_step?_flatMap_escaped (cs : List Char) (tokens : List Token) (read : List Char) :
    (cs.flatMap escaped).foldlM step? ⟨tokens, .quote ⟨read, true, none⟩⟩ =
      some ⟨tokens, .quote ⟨cs.reverse ++ read, true, none⟩⟩ := by
  induction cs generalizing read with
  | nil => rfl
  | cons c cs ih =>
    rw [List.flatMap_cons, List.foldlM_append, foldlM_step?_escaped, Option.bind_eq_bind,
      Option.bind_some]
    simp only [Quote.push, Option.isNone_none, Bool.and_self]
    rw [ih, List.reverse_cons, List.append_assoc, List.singleton_append]

theorem scans_str (s : String) : Scans [.str ⟨s, true⟩] := by
  rintro ⟨tokens, mode⟩ rfl
  have hopen : step? ⟨tokens, .between⟩ '"' = some ⟨tokens, .quote {}⟩ := rfl
  have hclose : step? ⟨tokens, .quote ⟨s.toList.reverse, true, none⟩⟩ '"' =
      some ⟨.str ⟨s, true⟩ :: tokens, .between⟩ := by
    simp [step?, Scan.add, Quote.close]
  refine ⟨⟨.str ⟨s, true⟩ :: tokens, .between⟩, ?_, rfl⟩
  have hbody := foldlM_step?_flatMap_escaped s.toList tokens []
  rw [List.append_nil] at hbody
  simp only [List.flatMap_cons, List.flatMap_nil, List.append_nil, chars, quoted,
    List.foldlM_cons, List.foldlM_append, List.foldlM_nil, hopen, Option.bind_eq_bind,
    Option.bind_some, hbody, hclose]
  rfl

end Token

/-! #### Values -/

open Token (Scans IsMark scans_nil)

theorem scans_itemTokens {items : List Value} (h : ∀ v ∈ items, Scans v.tokens) :
    Scans (Value.itemTokens items) := by
  induction items with
  | nil => exact scans_nil
  | cons v items ih =>
    obtain ⟨hv, hitems⟩ := List.forall_mem_cons.mp h
    cases items with
    | nil => exact hv
    | cons w items => exact hv.append ⟨',', rfl, rfl⟩ (ih hitems)

theorem scans_fieldTokens {fields : List (Text × Value)}
    (h : ∀ f ∈ fields, f.1.whole = true ∧ Scans f.2.tokens) :
    Scans (Value.fieldTokens fields) := by
  induction fields with
  | nil => exact scans_nil
  | cons f fields ih =>
    obtain ⟨⟨hkey, hv⟩, hfields⟩ := List.forall_mem_cons.mp h
    obtain ⟨⟨key, whole⟩, v⟩ := f
    cases hkey
    have hfield : Scans (.str ⟨key, true⟩ :: .colon :: v.tokens) :=
      (Token.scans_str key).append ⟨':', rfl, rfl⟩ hv
    cases fields with
    | nil => exact hfield
    | cons g fields =>
      have hall := hfield.append (t := .comma) ⟨',', rfl, rfl⟩ (ih hfields)
      simpa [Value.fieldTokens] using hall

theorem Value.scans_tokens [Numeral.Reading] {room : Nat} {v : Value}
    (h : v.isSound room = true) : Scans v.tokens := by
  induction v using Value.induction generalizing room with
  | hnull => exact Token.scans_word rfl (by decide) rfl rfl
  | hbool b => cases b <;> exact Token.scans_word rfl (by decide) rfl rfl
  | hnum cs =>
    cases hparse : Numeral.parse? cs with
    | none => simp [isSound, word64?, natBelow?, float?, hparse] at h
    | some n => exact Token.scans_num hparse
  | hstr t =>
    obtain ⟨content, whole⟩ := t
    have hwhole : whole = true := by simpa [isSound] using h
    subst hwhole
    exact Token.scans_str content
  | harr items ih =>
    cases room with
    | zero => cases h
    | succ room =>
      have hitems : ∀ v ∈ items, v.isSound room = true := by simpa [isSound] using h
      exact ((scans_itemTokens fun v hv => ih v hv (hitems v hv)).concat ⟨']', rfl, rfl⟩).cons
        ⟨'[', rfl, rfl⟩
  | hobj fields ih =>
    cases room with
    | zero => cases h
    | succ room =>
      have hfields : ∀ f ∈ fields, f.1.whole = true ∧ f.2.isSound room = true := by
        simpa [isSound] using h
      have htokens : ∀ f ∈ fields, f.1.whole = true ∧ Scans f.2.tokens := fun f hf =>
        ⟨(hfields f hf).1, ih f hf (hfields f hf).2⟩
      exact ((scans_fieldTokens htokens).concat ⟨'\x7d', rfl, rfl⟩).cons ⟨'\x7b', rfl, rfl⟩

theorem Token.Scans.scan? {ts : List Token} (h : Scans ts) :
    Token.scan? (ts.flatMap Token.chars) = some ts := by
  obtain ⟨s, hfold, hend⟩ := h {} rfl
  rw [Token.scan?, hfold, Option.bind_eq_bind, Option.bind_some, Scan.finish?, hend]
  simp

/-! ### From tokens to values -/

/-- The value is built from the tokens, wherever one may come. -/
def Builds (ts : List Token) (v : Value) : Prop :=
  ∀ b : Build, b.turn = .value ∨ b.turn = .item → ts.foldlM Build.step? b = Build.put? b.frames v

theorem step?_of_turn {b : Build} (h : b.turn = .value ∨ b.turn = .item) {t : Token}
    (ht : t ≠ .rightBracket) : b.step? t = b.open? t := by
  rcases h with h | h <;> rw [Build.step?, h]
  exact if_neg ht

theorem foldlM_itemTokens {items : List Value} (h : ∀ v ∈ items, Builds v.tokens v)
    (hne : items ≠ []) (acc : List Value) (frames : List Frame) {turn : Turn}
    (hturn : turn = .value ∨ turn = .item) :
    (Value.itemTokens items).foldlM Build.step? ⟨.arr acc :: frames, turn⟩ =
      some ⟨.arr (items.reverse ++ acc) :: frames, .rest⟩ := by
  induction items generalizing acc turn with
  | nil => exact absurd rfl hne
  | cons v items ih =>
    obtain ⟨hv, hitems⟩ := List.forall_mem_cons.mp h
    have hput := hv ⟨.arr acc :: frames, turn⟩ hturn
    cases items with
    | nil => exact hput
    | cons w items =>
      have hcomma : Build.step? ⟨.arr (v :: acc) :: frames, .rest⟩ .comma =
          some ⟨.arr (v :: acc) :: frames, .value⟩ := rfl
      rw [Value.itemTokens, List.foldlM_append, hput, Build.put?, Option.bind_eq_bind,
        Option.bind_some, List.foldlM_cons, hcomma, Option.bind_eq_bind, Option.bind_some,
        ih hitems (by simp) (v :: acc) (.inl rfl)]
      simp

theorem foldlM_fieldTokens {fields : List (Text × Value)} (h : ∀ f ∈ fields, Builds f.2.tokens f.2)
    (hne : fields ≠ []) (acc : List (Text × Value)) (frames : List Frame) {turn : Turn}
    (hturn : turn = .key ∨ turn = .firstKey) :
    (Value.fieldTokens fields).foldlM Build.step? ⟨.obj acc :: frames, turn⟩ =
      some ⟨.obj (fields.reverse ++ acc) :: frames, .rest⟩ := by
  induction fields generalizing acc turn with
  | nil => exact absurd rfl hne
  | cons f fields ih =>
    obtain ⟨key, v⟩ := f
    obtain ⟨hv, hfields⟩ := List.forall_mem_cons.mp h
    have hname : Build.step? ⟨.obj acc :: frames, turn⟩ (.str key) =
        some ⟨.field acc key :: frames, .colon⟩ := by
      rcases hturn with rfl | rfl <;> rfl
    have hcolon : Build.step? ⟨.field acc key :: frames, .colon⟩ .colon =
        some ⟨.field acc key :: frames, .value⟩ := rfl
    have hput : v.tokens.foldlM Build.step? ⟨.field acc key :: frames, .value⟩ =
        some ⟨.obj ((key, v) :: acc) :: frames, .rest⟩ := hv _ (.inl rfl)
    cases fields with
    | nil =>
      rw [Value.fieldTokens, List.foldlM_cons, hname, Option.bind_eq_bind, Option.bind_some,
        List.foldlM_cons, hcolon, Option.bind_eq_bind, Option.bind_some, hput]
      rfl
    | cons g fields =>
      have hcomma : Build.step? ⟨.obj ((key, v) :: acc) :: frames, .rest⟩ .comma =
          some ⟨.obj ((key, v) :: acc) :: frames, .key⟩ := rfl
      rw [Value.fieldTokens, List.foldlM_cons, hname, Option.bind_eq_bind, Option.bind_some,
        List.foldlM_cons, hcolon, Option.bind_eq_bind, Option.bind_some, List.foldlM_append, hput,
        Option.bind_eq_bind, Option.bind_some, List.foldlM_cons, hcomma, Option.bind_eq_bind,
        Option.bind_some, ih hfields (by simp) ((key, v) :: acc) (.inl rfl)]
      simp

theorem Value.builds_tokens (v : Value) : Builds v.tokens v := by
  induction v using Value.induction with
  | hnull | hbool | hnum | hstr =>
    intro b hb
    rw [tokens, List.foldlM_cons, step?_of_turn hb (by simp)]
    exact bind_pure _
  | harr items ih =>
    intro b hb
    have hopen : b.step? .leftBracket = some ⟨.arr [] :: b.frames, .item⟩ :=
      step?_of_turn hb (by simp)
    rw [tokens, List.foldlM_cons, hopen, Option.bind_eq_bind, Option.bind_some, List.foldlM_append]
    cases items with
    | nil => exact bind_pure (Build.put? b.frames (.arr []))
    | cons v items =>
      rw [foldlM_itemTokens ih (by simp) [] b.frames (.inr rfl), List.append_nil,
        Option.bind_eq_bind, Option.bind_some]
      simp [Build.step?, Build.close?]
  | hobj fields ih =>
    intro b hb
    have hopen : b.step? .leftBrace = some ⟨.obj [] :: b.frames, .firstKey⟩ :=
      step?_of_turn hb (by simp)
    rw [tokens, List.foldlM_cons, hopen, Option.bind_eq_bind, Option.bind_some, List.foldlM_append]
    cases fields with
    | nil => exact bind_pure (Build.put? b.frames (.obj []))
    | cons f fields =>
      rw [foldlM_fieldTokens ih (by simp) [] b.frames (.inr rfl), List.append_nil,
        Option.bind_eq_bind, Option.bind_some]
      simp [Build.step?, Build.close?]

/-- The text of a value reads back as that value. -/
theorem Value.parse?_render [Numeral.Reading] {room : Nat} {v : Value}
    (h : v.isSound room = true) : parse? v.render = some v := by
  rw [parse?, render, String.toList_ofList, (scans_tokens h).scan?, Option.bind_some, ofTokens?,
    v.builds_tokens {} (.inl rfl)]
  rfl

end Orrery.Json
