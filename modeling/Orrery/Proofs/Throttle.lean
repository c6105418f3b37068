import Orrery.Proofs.Document
import Orrery.Proofs.Resume

/-!
# The throttle of a saved command

How often a command is executed depends on two optional numbers, its rate and the time of its last
execution.  A number that is not finite is written as null, and null is read as no number at all, so
a command that was throttled by such a number comes back without a throttle.  What is left of a
number is `Numeral.kept?`; `Command.throttle_kept_iff` says for which commands nothing is lost by
it.

The numerals of finite numbers are read by whatever reading there is.  A reading that does not find
every number again may shift the throttle a little; one that does keeps all finite throttles
(`Command.throttle_kept_iff_of_readsBack`).
-/

namespace Orrery

open Json (Value)

/-! ### Undefined times -/

namespace Double

open Float.Model UnpackedFloat in
theorem isNaN_sub_left {x : Float} (y : Float) (h : x.isNaN = true) : (x - y).isNaN = true := by
  rw [isNaN_iff] at h
  have hsub : x - y = .ofModel (.pack (.sub .binary64 x.toModel.unpack y.toModel.unpack)) := rfl
  rw [hsub, h]
  exact isNaN_pack

open Float.Model UnpackedFloat in
theorem le_of_isNaN_right (x : Float) {y : Float} (h : y.isNaN = true) :
    Scalar.le x y = false := by
  rw [isNaN_iff] at h
  have hle : UnpackedFloat.le x.toModel.unpack y.toModel.unpack = false := by
    rw [h]
    cases x.toModel.unpack <;> rfl
  exact decide_eq_false (by rw [← Bool.not_eq_true] at hle; exact hle)

end Double

/-- At an undefined time a throttled command is not executed. -/
theorem Progress.allows_nan {p : Progress} {rate last : Float} (hrate : p.rate = some rate)
    (hlast : p.lastRun = some last) : p.allows Double.nan = false := by
  simp only [allows, hrate, hlast]
  exact Double.le_of_isNaN_right _ (Double.isNaN_sub_left _ Double.isNaN_nan)

theorem Progress.allows_of_none {p : Progress} (h : p.rate = none ∨ p.lastRun = none)
    (now : Float) : p.allows now = true := by
  obtain ⟨rate, last, isSetUp⟩ := p
  rcases h with rfl | rfl
  · cases last <;> rfl
  · rfl

/-! ### What is left of a number -/

section Reading

variable [Numeral.Reading]

namespace Numeral

/-- What is left of a number when it has been written and read again.  One that is not finite is
lost. -/
def kept? (x : Float) : Option Float :=
  if x.isFinite then (parse? (Layout.json.render x)).bind Reading.double? else none

/-- What is written for the number is read without an error, perhaps as another number. -/
def IsLegible (x : Float) : Prop := x.isFinite = true → (kept? x).isSome = true

instance (x : Float) : Decidable (IsLegible x) := inferInstanceAs (Decidable (_ → _))

theorem kept?_of_isReadable {x : Float} (h : IsReadable x) :
    kept? x = if x.isFinite then some x else none := by
  unfold kept?
  split
  · next hfinite => exact h hfinite
  · rfl

end Numeral

namespace Json.Value

theorem isSound_of_isLegible {room : Nat} {x : Float} (h : Numeral.IsLegible x) :
    (ofFloat x).isSound room = true := by
  unfold ofFloat
  split
  · next hfinite =>
    have hsome := h hfinite
    rw [Numeral.kept?, if_pos hfinite] at hsome
    simp [isSound, float?, hsome]
  · simp [isSound]

/-- Of an optional number, what is left of it is read. -/
theorem optional?_of_isLegible {a : Option Float} (h : ∀ x ∈ a.toList, Numeral.IsLegible x) :
    optional? (·.float?) (some (ofOption ofFloat a)) = some (a.bind Numeral.kept?) := by
  cases a with
  | none => rfl
  | some x =>
    have hx := h x (by simp)
    show optional? (·.float?) (some (ofFloat x)) = some (Numeral.kept? x)
    unfold ofFloat Numeral.kept?
    split
    · next hfinite =>
      obtain ⟨y, hy⟩ := Option.isSome_iff_exists.mp (hx hfinite)
      rw [Numeral.kept?, if_pos hfinite] at hy
      simp [optional?, float?, hy]
    · rfl

end Json.Value

/-! ### Commands -/

/-- What is left of the progress of a command. -/
def Progress.reread (p : Progress) : Progress where
  rate := p.rate.bind Numeral.kept?
  lastRun := p.lastRun.bind Numeral.kept?
  isSetUp := p.isSetUp

namespace Progress

variable {p : Progress}

theorem isSound_of_isLegible {room : Nat} (h : ∀ x ∈ p.numbers, Numeral.IsLegible x) :
    p.document.isSound (room + 1) = true := by
  have hfield : ∀ {a : Option Float}, (∀ x ∈ a.toList, Numeral.IsLegible x) →
      (Value.ofOption Value.ofFloat a).isSound room = true := fun h =>
    Value.isSound_ofOption fun x hx => Value.isSound_of_isLegible (h x (Option.mem_toList.mpr hx))
  simp only [numbers, List.forall_mem_append] at h
  apply Value.isSound_record
  simp [hfield h.1, hfield h.2, Value.isSound_bool]

theorem ofDocument?_of_isLegible (h : ∀ x ∈ p.numbers, Numeral.IsLegible x) :
    ofDocument? p.document = some p.reread := by
  simp only [numbers, List.forall_mem_append] at h
  obtain ⟨hrate, hlast⟩ := h
  simp [ofDocument?, document, Value.optional?_of_isLegible hrate,
    Value.optional?_of_isLegible hlast, Value.bool?, reread]

end Progress

namespace CommandRecord

/-- What is left of a record. -/
def reread : CommandRecord → CommandRecord
  | attack a progress => attack a progress.reread
  | mining m progress => mining m progress.reread

variable {r : CommandRecord}

theorem isSound_of_isLegible {room : Nat} (h : ∀ x ∈ r.numbers, Numeral.IsLegible x) :
    r.document.isSound (room + 2) = true := by
  cases r <;> apply Value.isSound_record <;>
    simp [EntityId.document, Value.isSound_ofString, Progress.isSound_of_isLegible h]

theorem ofDocument?_of_isLegible {room : Nat} (h : ∀ x ∈ r.numbers, Numeral.IsLegible x) :
    ofDocument? (room + 2) r.document = some r.reread := by
  have hid : ∀ id : EntityId, id.document.isSound (room + 1) = true := fun id =>
    Value.isSound_ofString id.name
  cases r with
  | attack a p =>
    rw [ofDocument?, document, Value.tagged?_record
      (by simp [hid, Progress.isSound_of_isLegible h]) (by simp)]
    simp [partsOfDocument?, Progress.ofDocument?_of_isLegible h, reread]
  | mining m p =>
    rw [ofDocument?, document, Value.tagged?_record
      (by simp [hid, Progress.isSound_of_isLegible h]) (by simp)]
    simp [partsOfDocument?, Progress.ofDocument?_of_isLegible h, reread]

end CommandRecord

namespace Command

variable {κ : Type}

/-- The command that is made again of the text of its record. -/
def restored? (room : Nat) (c : Command κ) : Option (Command κ) := do
  let r ← c.record?
  let document ← Value.parse? r.document.render
  return (← CommandRecord.ofDocument? room document).command

/-- An attack or a mining run comes back with what is left of its progress. -/
theorem restored?_eq {room : Nat} {c : Command κ} (hc : c.BuiltIn)
    (h : ∀ x ∈ c.progress.numbers, Numeral.IsLegible x) :
    c.restored? (room + 2) = some { c with progress := c.progress.reread } := by
  obtain ⟨r, hr, rfl⟩ := hc.exists_record
  have hnumbers : (r.command : Command κ).progress.numbers = r.numbers := by cases r <;> rfl
  rw [hnumbers] at h
  have hcommand : (r.reread.command : Command κ) =
      { (r.command : Command κ) with progress := (r.command : Command κ).progress.reread } := by
    cases r <;> rfl
  have hsound : r.document.isSound (room + 2) = true := CommandRecord.isSound_of_isLegible h
  simp [restored?, hr, Value.parse?_render hsound, CommandRecord.ofDocument?_of_isLegible h,
    hcommand]

end Command

/-! ### Throttles -/

namespace Progress

variable (p : Progress)

/-- The same executions are allowed when the numbers have been written and read: there is no
throttle that could be lost, or both numbers are left and demand the same. -/
theorem forall_allows_reread_iff :
    (∀ now, p.reread.allows now = p.allows now) ↔ p.rate = none ∨ p.lastRun = none ∨
      ∃ rate last rate' last', p.rate = some rate ∧ p.lastRun = some last ∧
        Numeral.kept? rate = some rate' ∧ Numeral.kept? last = some last' ∧
        ∀ now, Scalar.le rate' (now - last') = Scalar.le rate (now - last) := by
  constructor
  · intro h
    cases hrate : p.rate with
    | none => exact .inl rfl
    | some rate =>
      cases hlast : p.lastRun with
      | none => exact .inr (.inl rfl)
      | some last =>
        -- the original refuses at an undefined time, so there is a throttle afterwards too
        have hnan := h Double.nan
        rw [allows_nan hrate hlast] at hnan
        cases hrate' : p.reread.rate with
        | none => rw [allows_of_none (.inl hrate')] at hnan; cases hnan
        | some rate' =>
          cases hlast' : p.reread.lastRun with
          | none => rw [allows_of_none (.inr hlast')] at hnan; cases hnan
          | some last' =>
            refine .inr (.inr ⟨rate, last, rate', last', rfl, rfl, ?_, ?_, fun now => ?_⟩)
            · simpa [reread, hrate] using hrate'
            · simpa [reread, hlast] using hlast'
            · simpa only [allows, hrate, hlast, hrate', hlast'] using h now
  · rintro (h | h | ⟨rate, last, rate', last', hrate, hlast, hrate', hlast', h⟩) now
    · rw [allows_of_none (.inl h), allows_of_none (.inl (by simp [reread, h]))]
    · rw [allows_of_none (.inr h), allows_of_none (.inr (by simp [reread, h]))]
    · simpa [allows, reread, hrate, hlast, hrate', hlast'] using h now

/-- If every number that is left is left as it was, the throttle is kept as long as it is finite. -/
theorem forall_allows_reread_iff_of_isReadable (h : ∀ x ∈ p.numbers, Numeral.IsReadable x) :
    (∀ now, p.reread.allows now = p.allows now) ↔
      p.rate = none ∨ p.lastRun = none ∨ ∀ x ∈ p.numbers, x.isFinite = true := by
  rw [p.forall_allows_reread_iff]
  constructor
  · rintro (hrate | hlast | ⟨rate, last, rate', last', hrate, hlast, hrate', hlast', -⟩)
    · exact .inl hrate
    · exact .inr (.inl hlast)
    · have hkept : ∀ {x y}, Numeral.kept? x = some y → x.isFinite = true := fun {x y} hxy => by
        by_contra hx
        rw [Numeral.kept?, if_neg hx] at hxy
        cases hxy
      exact .inr (.inr (by simp [numbers, hrate, hlast, hkept hrate', hkept hlast']))
  · rintro (hrate | hlast | hfinite)
    · exact .inl hrate
    · exact .inr (.inl hlast)
    · have hkept : ∀ x ∈ p.numbers, Numeral.kept? x = some x := fun x hx => by
        rw [Numeral.kept?_of_isReadable (h x hx), if_pos (hfinite x hx)]
      cases hrate : p.rate with
      | none => exact .inl rfl
      | some rate =>
        cases hlast : p.lastRun with
        | none => exact .inr (.inl rfl)
        | some last =>
          exact .inr (.inr ⟨rate, last, rate, last, rfl, rfl, hkept _ (by simp [numbers, hrate]),
            hkept _ (by simp [numbers, hlast]), fun _ => rfl⟩)

end Progress

namespace Command

variable {κ : Type}

/-- An attack or a mining run whose numbers can be read comes back from the text of its record with
the same name, the same entities and the same note of its setup.  It may be executed at the same
times if and only if it is not throttled, or both numbers of its throttle are left and demand the
same.  Where every finite number is read as it was, this means: if and only if it is not throttled
or its throttle is finite. -/
theorem throttle_kept_iff (room : Nat) {c : Command κ} (hc : c.BuiltIn)
    (h : ∀ x ∈ c.progress.numbers, Numeral.IsLegible x) :
    ∃ d, c.restored? (room + 2) = some d ∧ d.id = c.id ∧ d.task = c.task ∧
      d.progress.isSetUp = c.progress.isSetUp ∧
      ((∀ now, d.progress.allows now = c.progress.allows now) ↔
        c.progress.rate = none ∨ c.progress.lastRun = none ∨
          ∃ rate last rate' last', c.progress.rate = some rate ∧ c.progress.lastRun = some last ∧
            Numeral.kept? rate = some rate' ∧ Numeral.kept? last = some last' ∧
            ∀ now, Scalar.le rate' (now - last') = Scalar.le rate (now - last)) ∧
      ((∀ x ∈ c.progress.numbers, Numeral.IsReadable x) →
        ((∀ now, d.progress.allows now = c.progress.allows now) ↔
          c.progress.rate = none ∨ c.progress.lastRun = none ∨
            ∀ x ∈ c.progress.numbers, x.isFinite = true)) :=
  ⟨_, restored?_eq hc h, rfl, rfl, rfl, c.progress.forall_allows_reread_iff,
    c.progress.forall_allows_reread_iff_of_isReadable⟩

end Command

end Reading

/-- An attack that is executed every two and a half seconds goes on so. -/
theorem Command.throttle_kept_siege :
    let c : Command Unit := .attack Skirmish.attack ⟨some 2.5, some 1500.25, true⟩
    (∀ x ∈ c.progress.numbers, Numeral.IsLegible x) ∧
      ∃ d, c.restored? Value.maxDepth = some d ∧ d.id = c.id ∧ d.task = c.task ∧
        d.progress.isSetUp = true ∧ ∀ now, d.progress.allows now = c.progress.allows now := by
  intro c
  have hlegible : ∀ x ∈ c.progress.numbers, Numeral.IsLegible x := by decide +kernel
  obtain ⟨d, hd, hid, htask, hset, -, hiff⟩ :=
    Command.throttle_kept_iff 125 (c := c) ⟨_, _, _, rfl⟩ hlegible
  exact ⟨hlegible, d, hd, hid, htask, hset,
    (hiff (by decide +kernel)).mpr (.inr (.inr (by decide +kernel)))⟩

namespace Skirmish

/-- A feeble hunter and its prey. -/
def feud : Setting Unit Unit where
  now := 0
  entities :=
    { table :=
        { entries := [(hunter.id, .ship { hunter with damage := 1 }), (prey.id, .ship prey)]
          nodup := by decide } }
  tracker := tracker
  outside := ()

/-- An attack that is to be executed at a certain rate, after its first tick. -/
def underway (rate : Float) : Command Unit :=
  ((Command.attack attack { rate := some rate }).tick Host.still.toCommandHost feud).2.1

/-- The command after it has been saved, and whether it may be executed at the time. -/
def restoredAllows (c : Command Unit) (now : Float) : Option Bool :=
  (c.restored? Value.maxDepth).map (·.progress.allows now)

/-- Its text need not be written and read to know what becomes of the command. -/
theorem restoredAllows_underway {rate : Float}
    (h : ∀ x ∈ (underway rate).progress.numbers, Numeral.IsLegible x) (now : Float) :
    restoredAllows (underway rate) now = some ((underway rate).progress.reread.allows now) := by
  have hbuiltIn : (underway rate).BuiltIn := Command.BuiltIn.tick _ ⟨_, _, _, rfl⟩ _
  have hroom : Value.maxDepth = 125 + 2 := rfl
  rw [restoredAllows, hroom, Command.restored?_eq hbuiltIn h]
  rfl

end Skirmish

/-- An attack with an infinite rate is executed only once, but when it has been saved and restored
it may be executed again.  Another one comes back with a lower rate, since the numeral of its rate
has more digits than are read exactly. -/
theorem Command.throttle_lost :
    ((Skirmish.underway (1.0 / 0.0)).progress.allows 1.0 = false ∧
      Skirmish.restoredAllows (Skirmish.underway (1.0 / 0.0)) 1.0 = some true) ∧
    ((Skirmish.underway 0.09955621388737201).progress.allows 0.099556213887372 = false ∧
      Skirmish.restoredAllows (Skirmish.underway 0.09955621388737201) 0.099556213887372 =
        some true) := by
  rw [Skirmish.restoredAllows_underway (by decide +kernel),
    Skirmish.restoredAllows_underway (by decide +kernel)]
  decide +kernel

end Orrery
