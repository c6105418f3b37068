import Orrery.Document.Snapshot
import Orrery.Proofs.Json
import Orrery.Proofs.Silence
import Orrery.Proofs.Table

/-!
# Documents read back

Every part of a snapshot reads back from its written form, without its listeners, and so does the
whole (`Snapshot.load_save`).  What is asked of the numbers is that each of them is finite and reads
back from its own numeral (`Numeral.ReadsBack`); nothing is asked of anything else.
-/

namespace Orrery

open Json (Value)

/-- The numeral of a number stands for that number. -/
def Numeral.ReadsBack [Reading] (x : Float) : Prop :=
  (parse? (Layout.json.render x)).bind Reading.double? = some x

instance [Numeral.Reading] (x : Float) : Decidable (Numeral.ReadsBack x) :=
  inferInstanceAs (Decidable (_ = _))

/-- What is written for a number makes sense: it is null, or a numeral from which the number reads
back. -/
def Numeral.IsReadable [Reading] (x : Float) : Prop := x.isFinite = true → ReadsBack x

instance [Numeral.Reading] (x : Float) : Decidable (Numeral.IsReadable x) :=
  inferInstanceAs (Decidable (_ → _))

/-- A number that is written as a numeral, from which it reads back. -/
def Numeral.Keeps [Reading] (x : Float) : Prop := x.isFinite = true ∧ ReadsBack x

theorem Numeral.isReadable_of_keeps [Reading] {xs : List Float} (h : ∀ x ∈ xs, Keeps x) :
    ∀ x ∈ xs, IsReadable x := fun x hx _ => (h x hx).2

/-! ### Records -/

namespace Json.Value

theorem natBelow?_ofNat {n bound : Nat} (h : n < bound) (hbound : bound ≤ UInt64.size) :
    (ofNat n).natBelow? bound = some n := by
  simp [ofNat, natBelow?, Numeral.parse?_digitsOf (Nat.lt_of_lt_of_le h hbound), Numeral.nat?,
    Option.filter, h]

@[simp] theorem word64?_ofNat (n : UInt64) : (ofNat n.toNat).word64? = some n := by
  rw [word64?, natBelow?_ofNat n.toNat_lt (Nat.le_refl _), Option.map_some, UInt64.ofNat_toNat]

@[simp] theorem word32?_ofNat (n : UInt32) : (ofNat n.toNat).word32? = some n := by
  rw [word32?, natBelow?_ofNat n.toNat_lt (by decide), Option.map_some, UInt32.ofNat_toNat]

@[simp] theorem string?_ofString (s : String) : (ofString s).string? = some s := rfl

@[simp] theorem fields?_record {names : List String} {fields : List (String × Value)}
    (hnames : fields.map (·.1) = names) (h : names.Nodup) :
    (record fields).fields? names = some (fields.map fun f => some f.2) := by
  subst hnames
  have hwhole : (fields.map fun f => ((⟨f.1, true⟩ : Text), f.2)).all (·.1.whole) = true := by simp
  have honce : ((fields.map (·.1)).all fun n =>
      (fields.map fun f => ((⟨f.1, true⟩ : Text), f.2)).countP (·.1.content = n) ≤ 1) = true := by
    simp only [List.all_eq_true, decide_eq_true_eq]
    intro n _
    have hcount := List.nodup_iff_count_le_one.mp h n
    simpa [List.count, List.countP_map, Function.comp_def, beq_eq_decide] using hcount
  have hfind : ∀ f ∈ fields, ((fields.map fun f => ((⟨f.1, true⟩ : Text), f.2)).find?
      (·.1.content = f.1)).map (·.2) = some f.2 := by
    intro f hf
    have hget : (⟨fields, h⟩ : Table String Value).get? f.1 = some f.2 :=
      Table.get?_eq_some_iff.mpr hf
    simpa [Table.get?, List.find?_map, Function.comp_def] using hget
  simp only [record, fields?, hwhole, honce, Bool.and_self, ↓reduceIte, List.map_map]
  exact congrArg some (List.map_congr_left hfind)

/-- What is read comes before the rest. -/
theorem read_then {α β : Type} {x : Option α} {a : α} {f : α → Option β} {b : β} (h : x = some a)
    (hrest : f a = some b) : (x >>= f) = some b := by
  rw [h]
  exact hrest

theorem list?_ofList {α : Type} {read : Value → Option α} {write : α → Value} {f : α → α}
    {items : List α} (h : ∀ a ∈ items, read (write a) = some (f a)) :
    list? read (ofList write items) = some (items.map f) := by
  show (items.map write).mapM read = _
  induction items with
  | nil => rfl
  | cons a items ih =>
    obtain ⟨ha, hitems⟩ := List.forall_mem_cons.mp h
    rw [List.map_cons, List.mapM_cons, ha, ih hitems]
    rfl

theorem optional?_ofOption {α : Type} {read : Value → Option α} {write : α → Value} {a : Option α}
    (h : ∀ x ∈ a, read (write x) = some x ∧ write x ≠ null) :
    optional? read (some (ofOption write a)) = some a := by
  cases a with
  | none => rfl
  | some x =>
    obtain ⟨hread, hnull⟩ := h x rfl
    show optional? read (some (write x)) = _
    unfold optional?
    split
    · next heq => cases heq
    · next heq => exact absurd (Option.some.inj heq) hnull
    · next heq =>
      rw [← Option.some.inj heq, hread]
      rfl

section Reading

variable [Numeral.Reading]

theorem float?_ofFloat {x : Float} (h : Numeral.Keeps x) : (ofFloat x).float? = some x := by
  rw [ofFloat, if_pos h.1]
  exact h.2

theorem ofFloat_ne_null {x : Float} (h : Numeral.Keeps x) : ofFloat x ≠ null := by
  rw [ofFloat, if_pos h.1]
  exact nofun

theorem optional?_ofFloat {a : Option Float} (h : ∀ x ∈ a.toList, Numeral.Keeps x) :
    optional? (·.float?) (some (ofOption ofFloat a)) = some a :=
  optional?_ofOption fun x hx =>
    have hkeeps := h x (Option.mem_toList.mpr hx)
    ⟨float?_ofFloat hkeeps, ofFloat_ne_null hkeeps⟩

/-! ### Soundness -/

theorem isSound_record {room : Nat} {fields : List (String × Value)}
    (h : ∀ f ∈ fields, f.2.isSound room = true) : (record fields).isSound (room + 1) = true := by
  simpa [record, isSound] using h

theorem isSound_ofString {room : Nat} (s : String) : (ofString s).isSound room = true := by
  simp [ofString, isSound]

theorem isSound_bool {room : Nat} (b : Bool) : (bool b).isSound room = true := by
  simp [isSound]

theorem isSound_word64 {room : Nat} (n : UInt64) : (ofNat n.toNat).isSound room = true := by
  have hword := word64?_ofNat n
  rw [ofNat] at hword ⊢
  simp [isSound, hword]

theorem isSound_word32 {room : Nat} (n : UInt32) : (ofNat n.toNat).isSound room = true := by
  have hword : (ofNat n.toUInt64.toNat).isSound room = true := isSound_word64 n.toUInt64
  rwa [UInt32.toNat_toUInt64] at hword

theorem isSound_ofFloat {room : Nat} {x : Float} (h : Numeral.IsReadable x) :
    (ofFloat x).isSound room = true := by
  unfold ofFloat
  split
  · next hfinite =>
    have hreads := float?_ofFloat ⟨hfinite, h hfinite⟩
    rw [ofFloat, if_pos hfinite] at hreads
    simp [isSound, hreads]
  · simp [isSound]

theorem isSound_ofOption {α : Type} {room : Nat} {write : α → Value} {a : Option α}
    (h : ∀ x ∈ a, (write x).isSound room = true) : (ofOption write a).isSound room = true := by
  cases a with
  | none => simp [ofOption, isSound]
  | some x => exact h x rfl

theorem isSound_optional {room : Nat} {a : Option Float}
    (h : ∀ x ∈ a.toList, Numeral.IsReadable x) : (ofOption ofFloat a).isSound room = true :=
  isSound_ofOption fun x hx => isSound_ofFloat (h x (Option.mem_toList.mpr hx))

theorem isSound_ofList {α : Type} {room : Nat} {write : α → Value} {items : List α}
    (h : ∀ a ∈ items, (write a).isSound room = true) :
    (ofList write items).isSound (room + 1) = true := by
  simpa [ofList, isSound] using h

/-- A tagged record is recognised by its tag. -/
theorem tagged?_record {tag kind : String} {room : Nat} {fields : List (String × Value)}
    (hsound : ∀ f ∈ fields, f.2.isSound room = true) (htag : tag ∉ fields.map (·.1)) :
    (record ((tag, ofString kind) :: fields)).tagged? tag (room + 1) =
      some (kind, record fields) := by
  have hwhole : (record ((tag, ofString kind) :: fields)).isSound (room + 1) = true :=
    isSound_record (List.forall_mem_cons.mpr ⟨isSound_ofString kind, hsound⟩)
  have hrest : ∀ f ∈ fields.map (fun f => ((⟨f.1, true⟩ : Text), f.2)), f.1.content ≠ tag := by
    rintro f hf rfl
    obtain ⟨g, hg, rfl⟩ := List.mem_map.mp hf
    exact htag (List.mem_map_of_mem hg)
  have hpartition : ((⟨tag, true⟩, ofString kind) ::
      fields.map fun f => ((⟨f.1, true⟩ : Text), f.2)).partition (·.1.content = tag) =
        ([(⟨tag, true⟩, ofString kind)], fields.map fun f => (⟨f.1, true⟩, f.2)) := by
    rw [List.partition_eq_filter_filter, List.filter_cons_of_pos (by simp),
      List.filter_cons_of_neg (by simp),
      List.filter_eq_nil_iff.mpr fun f hf => by simp [hrest f hf],
      List.filter_eq_self.mpr fun f hf => by simp [hrest f hf]]
  have hdocument : record ((tag, ofString kind) :: fields) = obj ((⟨tag, true⟩, ofString kind) ::
      fields.map fun f => ((⟨f.1, true⟩ : Text), f.2)) := rfl
  rw [hdocument] at hwhole ⊢
  unfold tagged?
  simp only [hwhole, Bool.not_true, Bool.false_eq_true, ↓reduceIte, hpartition]
  rfl

end Reading

end Json.Value

/-! ### Positions -/

section Motion

variable [Numeral.Reading]

/-- All numbers in a vector. -/
def Vec3.numbers (v : Point) : List Float := [v.x, v.y, v.z]

/-- All numbers in a spin. -/
def Spin.numbers (s : Spin Float) : List Float := s.axis.numbers ++ s.speed :: s.stopAngle.toList

/-- All numbers in a cruise. -/
def Cruise.numbers (c : Cruise Float) : List Float :=
  c.direction.numbers ++ c.speed :: (c.stopDistance.toList ++ c.spin.toList.flatMap Spin.numbers)

/-- All numbers in an orbit. -/
def Orbit.numbers (o : Orbit Float) : List Float :=
  o.semiLatusRectum :: o.eccentricity :: o.speed :: o.trueAnomaly ::
    (o.major.numbers ++ o.minor.numbers)

/-- All numbers in a pursuit. -/
def Pursuit.numbers (p : Pursuit Float) : List Float := p.distance :: p.speed :: p.offset.numbers

/-- All numbers in a rule. -/
def Rule.numbers : Rule Float → List Float
  | rest => []
  | cruise c => c.numbers
  | orbit o => o.numbers
  | spin s => s.numbers
  | pursuit p => p.numbers

/-- All numbers in a kinematic state. -/
def Kinematics.numbers (k : Kinematics Float) : List Float :=
  k.distanceMoved :: k.angleRotated :: (k.coords.numbers ++ k.orientation.numbers)

/-- All numbers in a tracked position. -/
def Tracked.numbers (t : Tracked) : List Float :=
  t.position.state.numbers ++ t.position.rule.numbers

theorem Vec3.ofDocument?_document {v : Point} (h : ∀ x ∈ v.numbers, Numeral.Keeps x) :
    ofDocument? v.document = some v := by
  simp only [numbers, List.forall_mem_cons] at h
  obtain ⟨hx, hy, hz, -⟩ := h
  simp [ofDocument?, document, Value.float?_ofFloat hx, Value.float?_ofFloat hy,
    Value.float?_ofFloat hz]

theorem Vec3.isSound_document {room : Nat} {v : Point}
    (h : ∀ x ∈ v.numbers, Numeral.IsReadable x) : v.document.isSound (room + 1) = true := by
  simp only [numbers, List.forall_mem_cons] at h
  obtain ⟨hx, hy, hz, -⟩ := h
  apply Value.isSound_record
  simp [Value.isSound_ofFloat hx, Value.isSound_ofFloat hy, Value.isSound_ofFloat hz]

omit [Numeral.Reading] in
@[simp] theorem PositionId.ofDocument?_document (id : PositionId) :
    ofDocument? id.document = some id := by
  simp [ofDocument?, document]

theorem Spin.ofDocument?_document {s : Spin Float} (h : ∀ x ∈ s.numbers, Numeral.Keeps x) :
    ofDocument? s.document = some s := by
  simp only [numbers, List.forall_mem_append, List.forall_mem_cons] at h
  obtain ⟨haxis, hspeed, hstop⟩ := h
  simp [ofDocument?, document, fields, Vec3.ofDocument?_document haxis,
    Value.float?_ofFloat hspeed, Value.optional?_ofFloat hstop]

theorem Spin.isSound_fields {room : Nat} {s : Spin Float}
    (h : ∀ x ∈ s.numbers, Numeral.IsReadable x) :
    ∀ f ∈ s.fields, f.2.isSound (room + 1) = true := by
  simp only [numbers, List.forall_mem_append, List.forall_mem_cons] at h
  obtain ⟨haxis, hspeed, hstop⟩ := h
  simp [fields, Vec3.isSound_document haxis, Value.isSound_ofFloat hspeed,
    Value.isSound_optional hstop]

omit [Numeral.Reading] in
theorem Cruise.forall_numbers {c : Cruise Float} {P : Float → Prop} (h : ∀ x ∈ c.numbers, P x) :
    (∀ x ∈ c.direction.numbers, P x) ∧ P c.speed ∧ (∀ x ∈ c.stopDistance.toList, P x) ∧
      ∀ s ∈ c.spin, ∀ x ∈ s.numbers, P x := by
  simp only [numbers, List.forall_mem_append, List.forall_mem_cons, List.mem_flatMap,
    Option.mem_toList] at h
  obtain ⟨hdirection, hspeed, hstop, hspin⟩ := h
  exact ⟨hdirection, hspeed, fun x hx => hstop x (Option.mem_toList.mp hx),
    fun s hs x hx => hspin x ⟨s, hs, hx⟩⟩

theorem Cruise.ofDocument?_fields {c : Cruise Float} (h : ∀ x ∈ c.numbers, Numeral.Keeps x) :
    ofDocument? (.record c.fields) = some c := by
  obtain ⟨hdirection, hspeed, hstop, hspin⟩ := forall_numbers h
  have hspin : Value.optional? Spin.ofDocument? (some (.ofOption Spin.document c.spin)) =
      some c.spin :=
    Value.optional?_ofOption fun s hs => ⟨Spin.ofDocument?_document (hspin s hs), nofun⟩
  simp [ofDocument?, fields, Vec3.ofDocument?_document hdirection,
    Value.float?_ofFloat hspeed, Value.optional?_ofFloat hstop, hspin]

theorem Cruise.isSound_fields {room : Nat} {c : Cruise Float}
    (h : ∀ x ∈ c.numbers, Numeral.IsReadable x) :
    ∀ f ∈ c.fields, f.2.isSound (room + 2) = true := by
  obtain ⟨hdirection, hspeed, hstop, hspin⟩ := forall_numbers h
  have hspin : (Value.ofOption Spin.document c.spin).isSound (room + 2) = true :=
    Value.isSound_ofOption fun s hs => Value.isSound_record (Spin.isSound_fields (hspin s hs))
  simp [fields, Vec3.isSound_document hdirection, Value.isSound_ofFloat hspeed,
    Value.isSound_optional hstop, hspin]

omit [Numeral.Reading] in
@[simp] theorem OrbitOrigin.ofDocument?_text (o : OrbitOrigin) :
    ofDocument? (.ofString o.text) = some o := by
  cases o <;> rfl

theorem Orbit.ofDocument?_fields {o : Orbit Float} (h : ∀ x ∈ o.numbers, Numeral.Keeps x) :
    ofDocument? (.record o.fields) = some o := by
  simp only [numbers, List.forall_mem_append, List.forall_mem_cons] at h
  obtain ⟨hlatus, heccentricity, hspeed, hanomaly, hmajor, hminor⟩ := h
  simp [ofDocument?, fields, Value.float?_ofFloat hlatus, Value.float?_ofFloat heccentricity,
    Value.float?_ofFloat hspeed, Value.float?_ofFloat hanomaly, Vec3.ofDocument?_document hmajor,
    Vec3.ofDocument?_document hminor]

theorem Orbit.isSound_fields {room : Nat} {o : Orbit Float}
    (h : ∀ x ∈ o.numbers, Numeral.IsReadable x) :
    ∀ f ∈ o.fields, f.2.isSound (room + 1) = true := by
  simp only [numbers, List.forall_mem_append, List.forall_mem_cons] at h
  obtain ⟨hlatus, heccentricity, hspeed, hanomaly, hmajor, hminor⟩ := h
  simp [fields, Value.isSound_ofFloat hlatus, Value.isSound_ofFloat heccentricity,
    Value.isSound_ofFloat hspeed, Value.isSound_ofFloat hanomaly, Vec3.isSound_document hmajor,
    Vec3.isSound_document hminor, Value.isSound_ofString]

theorem Pursuit.ofDocument?_fields {p : Pursuit Float} (h : ∀ x ∈ p.numbers, Numeral.Keeps x) :
    ofDocument? (.record p.fields) = some p := by
  simp only [numbers, List.forall_mem_cons] at h
  obtain ⟨hdistance, hspeed, hoffset⟩ := h
  simp [ofDocument?, fields, Value.float?_ofFloat hdistance, Value.float?_ofFloat hspeed,
    Value.bool?, Vec3.ofDocument?_document hoffset]

theorem Pursuit.isSound_fields {room : Nat} {p : Pursuit Float}
    (h : ∀ x ∈ p.numbers, Numeral.IsReadable x) :
    ∀ f ∈ p.fields, f.2.isSound (room + 1) = true := by
  simp only [numbers, List.forall_mem_cons] at h
  obtain ⟨hdistance, hspeed, hoffset⟩ := h
  simp [fields, Value.isSound_ofFloat hdistance, Value.isSound_ofFloat hspeed,
    Vec3.isSound_document hoffset, PositionId.document, Value.isSound_word64, Value.isSound_bool]

theorem Rule.isSound_fields {room : Nat} {r : Rule Float}
    (h : ∀ x ∈ r.numbers, Numeral.IsReadable x) :
    ∀ f ∈ r.fields, f.2.isSound (room + 2) = true := by
  cases r with
  | rest => simp [fields]
  | cruise c => exact Cruise.isSound_fields h
  | orbit o => exact Orbit.isSound_fields h
  | spin s => exact Spin.isSound_fields h
  | pursuit p => exact Pursuit.isSound_fields h

theorem Rule.ofDocument?_document {room : Nat} {r : Rule Float}
    (h : ∀ x ∈ r.numbers, Numeral.Keeps x) : ofDocument? (room + 3) r.document = some r := by
  have htag : "rule" ∉ r.fields.map (·.1) := by
    cases r <;> simp [fields, Cruise.fields, Orbit.fields, Spin.fields, Pursuit.fields]
  rw [ofDocument?, document,
    Value.tagged?_record (isSound_fields (Numeral.isReadable_of_keeps h)) htag]
  cases r with
  | rest => rfl
  | cruise c => exact congrArg (Option.map cruise) (Cruise.ofDocument?_fields h)
  | orbit o => exact congrArg (Option.map orbit) (Orbit.ofDocument?_fields h)
  | spin s => exact congrArg (Option.map spin) (Spin.ofDocument?_document h)
  | pursuit p => exact congrArg (Option.map pursuit) (Pursuit.ofDocument?_fields h)

theorem Kinematics.ofDocument?_document {k : Kinematics Float}
    (h : ∀ x ∈ k.numbers, Numeral.Keeps x) : ofDocument? k.document = some k := by
  simp only [numbers, List.forall_mem_append, List.forall_mem_cons] at h
  obtain ⟨hmoved, hrotated, hcoords, horientation⟩ := h
  simp [ofDocument?, document, Value.float?_ofFloat hmoved, Value.float?_ofFloat hrotated,
    Vec3.ofDocument?_document hcoords, Vec3.ofDocument?_document horientation]

theorem Kinematics.isSound_document {room : Nat} {k : Kinematics Float}
    (h : ∀ x ∈ k.numbers, Numeral.IsReadable x) : k.document.isSound (room + 2) = true := by
  simp only [numbers, List.forall_mem_append, List.forall_mem_cons] at h
  obtain ⟨hmoved, hrotated, hcoords, horientation⟩ := h
  apply Value.isSound_record
  simp [Value.isSound_ofFloat hmoved, Value.isSound_ofFloat hrotated,
    Vec3.isSound_document hcoords, Vec3.isSound_document horientation]

omit [Numeral.Reading] in
@[simp] theorem MotionStatus.ofDocument?_text (s : MotionStatus) :
    ofDocument? (.ofString s.text) = some s := by
  cases s <;> rfl

theorem Tracked.ofDocument?_document {room : Nat} {t : Tracked}
    (h : ∀ x ∈ t.numbers, Numeral.Keeps x) :
    ofDocument? (room + 5) t.document = some t.silenced := by
  simp only [numbers, List.forall_mem_append] at h
  obtain ⟨hstate, hrule⟩ := h
  have hparent : Value.optional? PositionId.ofDocument?
      (some (.ofOption PositionId.document t.position.parent)) = some t.position.parent :=
    Value.optional?_ofOption fun id _ => ⟨id.ofDocument?_document, nofun⟩
  have hposition : Position.ofDocument? (room + 4) t.position.document =
      some t.position.silenced := by
    simp [Position.ofDocument?, Position.document, hparent, Kinematics.ofDocument?_document hstate,
      Rule.ofDocument?_document hrule, Position.silenced]
  simp [ofDocument?, document, hposition, silenced]

theorem Tracked.isSound_document {room : Nat} {t : Tracked}
    (h : ∀ x ∈ t.numbers, Numeral.IsReadable x) : t.document.isSound (room + 5) = true := by
  simp only [numbers, List.forall_mem_append] at h
  obtain ⟨hstate, hrule⟩ := h
  have hrule : t.position.rule.document.isSound (room + 3) = true :=
    Value.isSound_record
      (List.forall_mem_cons.mpr ⟨Value.isSound_ofString _, Rule.isSound_fields hrule⟩)
  have hparent : (Value.ofOption PositionId.document t.position.parent).isSound (room + 3) = true :=
    Value.isSound_ofOption fun id _ => Value.isSound_word64 id.number
  have hposition : t.position.document.isSound (room + 4) = true := by
    apply Value.isSound_record
    simp [PositionId.document, Value.isSound_word64, hparent, Kinematics.isSound_document hstate,
      hrule]
  apply Value.isSound_record
  simp [hposition, Value.isSound_ofString]

end Motion

/-! ### Entities -/

@[simp] theorem EntityId.ofDocument?_document (id : EntityId) : ofDocument? id.document = some id :=
  rfl

@[simp] theorem Units.word32?_document (n : UInt32) : (document n).word32? = some n :=
  Value.word32?_ofNat n

@[simp] theorem Units.isSound_document [Numeral.Reading] {room : Nat} (n : UInt32) :
    (document n).isSound room = true := Value.isSound_word32 n

theorem Value.entries?_record {fields : List (String × UInt32)} :
    Value.entries? (·.word32?) (.record (fields.map fun e => (e.1, Units.document e.2))) =
      some fields := by
  simp only [Value.entries?, Value.record, List.map_map]
  induction fields with
  | nil => rfl
  | cons e fields ih =>
    rw [List.map_cons, List.mapM_cons, ih]
    simp [Value.string?]

@[simp] theorem Hold.ofDocument?_document (h : Hold) : ofDocument? h.document = some h := by
  have hstacks : stacksOf h.amounts.entries = h.amounts :=
    Table.foldl_insert (List.nil_append _).symm
  simp [ofDocument?, document, Value.entries?_record, hstacks]

theorem Hold.isSound_document [Numeral.Reading] {room : Nat} (h : Hold) :
    h.document.isSound (room + 2) = true := by
  have hresources : (Value.record (h.amounts.entries.map fun e =>
      (e.1, Units.document e.2))).isSound (room + 1) = true := by
    apply Value.isSound_record
    intro f hf
    obtain ⟨e, -, rfl⟩ := List.mem_map.mp hf
    exact Units.isSound_document e.2
  apply Value.isSound_record
  simp [hresources]

@[simp] theorem EntityId.optional?_document (id : Option EntityId) :
    Value.optional? EntityId.ofDocument? (some (.ofOption EntityId.document id)) = some id :=
  Value.optional?_ofOption fun id _ => ⟨id.ofDocument?_document, nofun⟩

section Entities

variable [Numeral.Reading]

/-- All numbers in an entity. -/
def Entity.numbers : Entity → List Float
  | ship s => [s.attackDistance, s.miningDistance, s.transferDistance]
  | station s => [s.transferDistance]
  | loot _ | deposit _ => []

theorem EntityId.isSound_optional {room : Nat} (id : Option EntityId) :
    (Value.ofOption EntityId.document id).isSound room = true :=
  Value.isSound_ofOption fun id _ => Value.isSound_ofString id.name

theorem Ship.ofDocument?_fields {s : Ship} (h : ∀ x ∈ (Entity.ship s).numbers, Numeral.Keeps x) :
    ofDocument? (.record s.fields) = some { s with events := {} } := by
  simp only [Entity.numbers, List.forall_mem_cons] at h
  obtain ⟨hattack, hmining, htransfer, -⟩ := h
  refine Value.read_then (Value.fields?_record rfl (by decide)) ?_
  refine Value.read_then s.id.ofDocument?_document ?_
  refine Value.read_then (Value.string?_ofString s.user) ?_
  refine Value.read_then (Value.string?_ofString s.system) ?_
  refine Value.read_then s.position.ofDocument?_document ?_
  refine Value.read_then (Units.word32?_document s.hp) ?_
  refine Value.read_then (Units.word32?_document s.shield) ?_
  refine Value.read_then (Units.word32?_document s.damage) ?_
  refine Value.read_then (Value.float?_ofFloat hattack) ?_
  refine Value.read_then (Value.float?_ofFloat hmining) ?_
  refine Value.read_then (Units.word32?_document s.miningQuantity) ?_
  refine Value.read_then (Value.float?_ofFloat htransfer) ?_
  refine Value.read_then s.hold.ofDocument?_document ?_
  refine Value.read_then (EntityId.optional?_document s.attacking) ?_
  refine Value.read_then (EntityId.optional?_document s.mining) ?_
  refine Value.read_then (EntityId.optional?_document s.destroyedBy) ?_
  rfl

theorem Station.ofDocument?_fields {s : Station}
    (h : ∀ x ∈ (Entity.station s).numbers, Numeral.Keeps x) :
    ofDocument? (.record s.fields) = some { s with events := {} } := by
  simp only [Entity.numbers, List.forall_mem_cons] at h
  obtain ⟨htransfer, -⟩ := h
  simp [ofDocument?, fields, Value.float?_ofFloat htransfer]

omit [Numeral.Reading] in
theorem Loot.ofDocument?_fields (l : Loot) : ofDocument? (.record l.fields) = some l := by
  simp [ofDocument?, fields]

omit [Numeral.Reading] in
theorem Deposit.ofDocument?_fields (d : Deposit) : ofDocument? (.record d.fields) = some d := by
  simp [ofDocument?, fields]

theorem Entity.isSound_fields {room : Nat} {e : Entity}
    (h : ∀ x ∈ e.numbers, Numeral.IsReadable x) :
    ∀ f ∈ e.fields, f.2.isSound (room + 2) = true := by
  cases e with
  | ship s =>
    simp only [numbers, List.forall_mem_cons] at h
    obtain ⟨hattack, hmining, htransfer, -⟩ := h
    simp [fields, Ship.fields, EntityId.document, PositionId.document, Value.isSound_ofString,
      Value.isSound_word64, Value.isSound_ofFloat hattack, Value.isSound_ofFloat hmining,
      Value.isSound_ofFloat htransfer, Hold.isSound_document, EntityId.isSound_optional]
  | station s =>
    simp only [numbers, List.forall_mem_cons] at h
    obtain ⟨htransfer, -⟩ := h
    simp [fields, Station.fields, EntityId.document, PositionId.document, Value.isSound_ofString,
      Value.isSound_word64, Value.isSound_ofFloat htransfer, Hold.isSound_document]
  | loot l =>
    simp [fields, Loot.fields, EntityId.document, PositionId.document, Value.isSound_ofString,
      Value.isSound_word64, Hold.isSound_document]
  | deposit d =>
    simp [fields, Deposit.fields, EntityId.document, PositionId.document, Value.isSound_ofString,
      Value.isSound_word64]

theorem Entity.isSound_document {room : Nat} {e : Entity}
    (h : ∀ x ∈ e.numbers, Numeral.IsReadable x) : e.document.isSound (room + 3) = true :=
  Value.isSound_record
    (List.forall_mem_cons.mpr ⟨Value.isSound_ofString e.kind, isSound_fields h⟩)

theorem Entity.ofDocument?_document {room : Nat} {e : Entity}
    (h : ∀ x ∈ e.numbers, Numeral.Keeps x) :
    ofDocument? (room + 3) e.document = some e.silenced := by
  have htag : "kind" ∉ e.fields.map (·.1) := by
    cases e <;> simp [fields, Ship.fields, Station.fields, Loot.fields, Deposit.fields]
  rw [ofDocument?, document,
    Value.tagged?_record (isSound_fields (Numeral.isReadable_of_keeps h)) htag]
  cases e with
  | ship s => exact congrArg (Option.map ship) (Ship.ofDocument?_fields h)
  | station s => exact congrArg (Option.map station) (Station.ofDocument?_fields h)
  | loot l => exact congrArg (Option.map loot) (Loot.ofDocument?_fields l)
  | deposit d => exact congrArg (Option.map deposit) (Deposit.ofDocument?_fields d)

end Entities

/-! ### Commands -/

section Commands

variable [Numeral.Reading]

/-- All numbers in the progress of a command. -/
def Progress.numbers (p : Progress) : List Float := p.rate.toList ++ p.lastRun.toList

/-- All numbers in a command. -/
def CommandRecord.numbers : CommandRecord → List Float
  | attack _ progress => progress.numbers
  | mining _ progress => progress.numbers

theorem Progress.ofDocument?_document {p : Progress} (h : ∀ x ∈ p.numbers, Numeral.Keeps x) :
    ofDocument? p.document = some p := by
  simp only [numbers, List.forall_mem_append] at h
  obtain ⟨hrate, hlast⟩ := h
  simp [ofDocument?, document, Value.optional?_ofFloat hrate, Value.optional?_ofFloat hlast,
    Value.bool?]

theorem Progress.isSound_document {room : Nat} {p : Progress}
    (h : ∀ x ∈ p.numbers, Numeral.IsReadable x) : p.document.isSound (room + 1) = true := by
  simp only [numbers, List.forall_mem_append] at h
  obtain ⟨hrate, hlast⟩ := h
  apply Value.isSound_record
  simp [Value.isSound_optional hrate, Value.isSound_optional hlast, Value.isSound_bool]

theorem CommandRecord.isSound_document {room : Nat} {r : CommandRecord}
    (h : ∀ x ∈ r.numbers, Numeral.IsReadable x) : r.document.isSound (room + 2) = true := by
  cases r <;> apply Value.isSound_record <;>
    simp [EntityId.document, Value.isSound_ofString, Progress.isSound_document h]

theorem CommandRecord.ofDocument?_document {room : Nat} {r : CommandRecord}
    (h : ∀ x ∈ r.numbers, Numeral.Keeps x) : ofDocument? (room + 2) r.document = some r := by
  have hid : ∀ id : EntityId, id.document.isSound (room + 1) = true := fun id =>
    Value.isSound_ofString id.name
  have hprogress : ∀ p : Progress, (∀ x ∈ p.numbers, Numeral.Keeps x) →
      p.document.isSound (room + 1) = true := fun p hp =>
    Progress.isSound_document (Numeral.isReadable_of_keeps hp)
  cases r with
  | attack a p =>
    rw [ofDocument?, document, Value.tagged?_record
      (by simp [hid, hprogress p h]) (by simp)]
    simp [partsOfDocument?, Progress.ofDocument?_document h]
  | mining m p =>
    rw [ofDocument?, document, Value.tagged?_record
      (by simp [hid, hprogress p h]) (by simp)]
    simp [partsOfDocument?, Progress.ofDocument?_document h]

end Commands

/-! ### Snapshots -/

namespace Snapshot

/-- All numbers in a snapshot. -/
def numbers (s : Snapshot) : List Float :=
  s.positions.flatMap Tracked.numbers ++ s.entities.flatMap Entity.numbers ++
    s.commands.flatMap CommandRecord.numbers

variable [Numeral.Reading]

theorem isSound_document {s : Snapshot} (h : ∀ x ∈ s.numbers, Numeral.IsReadable x) :
    s.document.isSound 7 = true := by
  simp only [numbers, List.forall_mem_append, List.forall_mem_flatMap] at h
  obtain ⟨⟨hpositions, hentities⟩, hcommands⟩ := h
  apply Value.isSound_record
  simp only [List.forall_mem_cons, List.not_mem_nil, false_implies, implies_true, and_true]
  exact ⟨Value.isSound_ofList fun t ht => Tracked.isSound_document (hpositions t ht),
    Value.isSound_ofList fun e he => Entity.isSound_document (hentities e he),
    Value.isSound_ofList fun r hr => CommandRecord.isSound_document (hcommands r hr)⟩

theorem ofDocument?_document {s : Snapshot} (h : ∀ x ∈ s.numbers, Numeral.Keeps x) :
    ofDocument? Value.maxDepth s.document = some s.silenced := by
  simp only [numbers, List.forall_mem_append, List.forall_mem_flatMap] at h
  obtain ⟨⟨hpositions, hentities⟩, hcommands⟩ := h
  have hpositions : Value.list? (Tracked.ofDocument? 125) (.ofList Tracked.document s.positions) =
      some (s.positions.map (·.silenced)) :=
    Value.list?_ofList fun t ht => Tracked.ofDocument?_document (hpositions t ht)
  have hentities : Value.list? (Entity.ofDocument? 125) (.ofList Entity.document s.entities) =
      some (s.entities.map (·.silenced)) :=
    Value.list?_ofList fun e he => Entity.ofDocument?_document (hentities e he)
  have hcommands : Value.list? (CommandRecord.ofDocument? 125)
      (.ofList CommandRecord.document s.commands) = some (s.commands.map id) :=
    Value.list?_ofList fun r hr => CommandRecord.ofDocument?_document (hcommands r hr)
  simp [ofDocument?, document, Value.maxDepth, hpositions, hentities, hcommands, silenced]

/-- The text of a snapshot spells its document, also where there is null in place of a number. -/
theorem parse?_save {s : Snapshot} (h : ∀ x ∈ s.numbers, Numeral.IsReadable x) :
    Value.parse? s.save = some s.document := Value.parse?_render (isSound_document h)

/-- Every snapshot whose numbers are all finite reads back from its own text, without its listeners.
Of the reading of numbers it is only asked that those numbers read back as themselves. -/
theorem load_save (s : Snapshot) (hfinite : ∀ x ∈ s.numbers, x.isFinite = true)
    (hreads : ∀ x ∈ s.numbers, Numeral.ReadsBack x) : load s.save = .ok s.silenced := by
  have hkeeps : ∀ x ∈ s.numbers, Numeral.Keeps x := fun x hx => ⟨hfinite x hx, hreads x hx⟩
  rw [load, parse?_save (Numeral.isReadable_of_keeps hkeeps), Option.bind_some,
    ofDocument?_document hkeeps]

end Snapshot

/-- A ship with cargo and a curious name that another one attacks. -/
theorem Snapshot.load_save_salvage :
    let hull : Ship :=
      { id := ⟨"the \"hull\"\n"⟩
        user := "ann"
        system := "sol\\é"
        position := ⟨18446744073709551615⟩
        hold := { capacity := 4294967295, amounts := ({} : Table String UInt32).insert "ore" 7 }
        events := EventTable.subscribe {} .defended ⟨"ann", ⟨0⟩⟩ }
    let course : Position :=
      { id := ⟨18446744073709551615⟩
        parent := some ⟨1⟩
        rule := .cruise ⟨⟨0.0, 0.5, -1.0⟩, 0.1, some 2.25, some ⟨Vec3.zAxis, 1e-7, none⟩⟩ }
    let s : Snapshot :=
      ⟨[{ position := course, status := .stopped }], [.ship hull],
        [.attack ⟨⟨"raider"⟩, hull.id⟩ { lastRun := some 1500.0 }]⟩
    load s.save = .ok s.silenced := by
  intro hull course s
  exact load_save s (by decide +kernel) (by decide +kernel)

end Orrery
