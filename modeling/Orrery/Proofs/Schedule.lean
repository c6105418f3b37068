import Mathlib.Data.List.Nodup
import Mathlib.Data.List.Perm.Basic
import Orrery.Command.Schedule

/-!
# Look-up on the schedule

The operations on the schedule in terms of `get?`.  Since no two commands have the same name, the
command of a name is the only one (`Schedule.get?_eq_some_iff`), and each operation changes what is
found under one name.
-/

namespace Orrery

/-! ### Names -/

theorem CommandId.toList_forEntity (sort : String) (e : EntityId) :
    (forEntity sort e).name.toList = sort.toList ++ "-cmd-".toList ++ e.name.toList := by
  simp only [forEntity, ← String.toList_append]
  rfl

/-- An entity drives at most one command of each sort. -/
theorem CommandId.forEntity_injective {sort : String} {e f : EntityId}
    (h : forEntity sort e = forEntity sort f) : e = f := by
  have hlist := congrArg (fun id : CommandId => id.name.toList) h
  simp only [toList_forEntity] at hlist
  -- the sort and the infix are the same on both sides
  cases e
  cases f
  exact congrArg EntityId.mk (String.toList_inj.mp (List.append_cancel_left hlist))

/-- No attack has the name of a mining run. -/
theorem CommandId.forEntity_attack_ne_mine (e f : EntityId) :
    forEntity "attack" e ≠ forEntity "mine" f := by
  intro h
  have hlist := congrArg (fun id : CommandId => id.name.toList) h
  -- the names differ in their first letters
  simp only [toList_forEntity] at hlist
  simp at hlist

namespace Schedule

variable {κ : Type}

/-! ### Look-up -/

theorem eq_of_id_eq (s : Schedule κ) {c d : Command κ} (hc : c ∈ s.commands) (hd : d ∈ s.commands)
    (h : c.id = d.id) : c = d := List.inj_on_of_nodup_map s.distinct hc hd h

theorem get?_eq_some_iff {s : Schedule κ} {id : CommandId} {c : Command κ} :
    s.get? id = some c ↔ c ∈ s.commands ∧ c.id = id := by
  unfold get?
  constructor
  · intro h
    exact ⟨List.mem_of_find?_eq_some h, by simpa using List.find?_some h⟩
  · rintro ⟨hc, hid⟩
    have hsome : (s.commands.find? (·.id = id)).isSome := by
      rw [List.find?_isSome]
      exact ⟨c, hc, by simpa using hid⟩
    obtain ⟨d, hd⟩ := Option.isSome_iff_exists.mp hsome
    have hdid : d.id = id := by simpa using List.find?_some hd
    rw [hd, s.eq_of_id_eq (List.mem_of_find?_eq_some hd) hc (hdid.trans hid.symm)]

theorem get?_eq_none_iff {s : Schedule κ} {id : CommandId} :
    s.get? id = none ↔ ∀ c ∈ s.commands, c.id ≠ id := by
  simp [get?, List.find?_eq_none]

theorem get?_put (s : Schedule κ) (c : Command κ) (id : CommandId) :
    (s.put c).get? id = if id = c.id then (s.get? id).map fun _ => c else s.get? id := by
  apply Option.ext
  intro d
  rw [get?_eq_some_iff]
  simp only [put, List.mem_map]
  by_cases hid : id = c.id
  · rw [if_pos hid, Option.map_eq_some_iff]
    constructor
    · rintro ⟨⟨e, he, rfl⟩, hd⟩
      by_cases hec : e.id = c.id
      · rw [if_pos hec]
        exact ⟨e, get?_eq_some_iff.mpr ⟨he, hec.trans hid.symm⟩, rfl⟩
      · rw [if_neg hec] at hd
        exact absurd (hd.trans hid) hec
    · rintro ⟨e, he, rfl⟩
      obtain ⟨hmem, hei⟩ := get?_eq_some_iff.mp he
      exact ⟨⟨e, hmem, if_pos (hei.trans hid)⟩, hid.symm⟩
  · rw [if_neg hid, get?_eq_some_iff]
    constructor
    · rintro ⟨⟨e, he, rfl⟩, hd⟩
      by_cases hec : e.id = c.id
      · rw [if_pos hec] at hd
        exact absurd hd.symm hid
      · rw [if_neg hec] at hd ⊢
        exact ⟨he, hd⟩
    · rintro ⟨hd, rfl⟩
      exact ⟨⟨d, hd, if_neg hid⟩, rfl⟩

/-- A command takes the place of the one of the same name, and all others stay. -/
theorem commands_put {s : Schedule κ} {front back : List (Command κ)} {c c' : Command κ}
    (h : s.commands = front ++ c :: back) (hid : c'.id = c.id) :
    (s.put c').commands = front ++ c' :: back := by
  have hdistinct := s.distinct
  rw [h, List.map_append, List.map_cons] at hdistinct
  have hnot : c.id ∉ front.map Command.id ++ back.map Command.id :=
    (List.nodup_middle.mp hdistinct).notMem
  have hothers : ∀ l : List (Command κ), (∀ d ∈ l, c.id ≠ d.id) →
      (l.map fun d => if d.id = c'.id then c' else d) = l := by
    intro l hl
    conv_rhs => rw [← List.map_id l]
    refine List.map_congr_left fun d hd => if_neg fun heq => hl d hd ?_
    rw [heq, hid]
  have hfront : ∀ d ∈ front, c.id ≠ d.id := fun d hd heq =>
    hnot (List.mem_append_left _ (heq ▸ List.mem_map_of_mem hd))
  have hback : ∀ d ∈ back, c.id ≠ d.id := fun d hd heq =>
    hnot (List.mem_append_right _ (heq ▸ List.mem_map_of_mem hd))
  show s.commands.map (fun d => if d.id = c'.id then c' else d) = _
  rw [h, List.map_append, List.map_cons, if_pos hid.symm, hothers front hfront, hothers back hback]

theorem get?_eraseAt (s : Schedule κ) {i : Nat} (h : i < s.commands.length) (id : CommandId) :
    (s.eraseAt i).get? id = if id = s.commands[i].id then none else s.get? id := by
  -- apart from the command that leaves, no other one has its name
  have hperm : (s.commands[i] :: (s.eraseAt i).commands).Perm s.commands :=
    List.getElem_cons_eraseIdx_perm h
  have hnodup := (hperm.map Command.id).nodup_iff.mpr s.distinct
  have hfresh : ∀ d ∈ (s.eraseAt i).commands, d.id ≠ s.commands[i].id := by
    intro d hd heq
    rw [List.map_cons, List.nodup_cons] at hnodup
    exact hnodup.1 (heq ▸ List.mem_map_of_mem hd)
  split
  · next hid =>
    rw [hid, get?_eq_none_iff]
    exact hfresh
  · next hid =>
    apply Option.ext
    intro d
    rw [get?_eq_some_iff, get?_eq_some_iff, ← hperm.mem_iff, List.mem_cons]
    constructor
    · rintro ⟨hd, hdid⟩
      exact ⟨.inr hd, hdid⟩
    · rintro ⟨rfl | hd, hdid⟩
      · exact absurd hdid.symm hid
      · exact ⟨hd, hdid⟩

theorem get?_of_add {s s' : Schedule κ} {c : Command κ} (h : s.add c = .ok s') :
    s.get? c.id = none ∧ ∀ id, s'.get? id = if id = c.id then some c else s.get? id := by
  unfold add at h
  split at h
  · cases h
  · next hfree =>
    cases h
    simp only [contains, List.any_eq_true, decide_eq_true_eq, not_exists, not_and] at hfree
    refine ⟨get?_eq_none_iff.mpr hfree, fun id => ?_⟩
    apply Option.ext
    intro d
    rw [get?_eq_some_iff, List.mem_append, List.mem_singleton]
    split
    · next hid =>
      rw [Option.some.injEq]
      constructor
      · rintro ⟨hd | rfl, hdid⟩
        · exact absurd (hdid.trans hid) (hfree d hd)
        · rfl
      · rintro rfl
        exact ⟨.inr rfl, hid.symm⟩
    · next hid =>
      rw [get?_eq_some_iff]
      constructor
      · rintro ⟨hd | rfl, hdid⟩
        · exact ⟨hd, hdid⟩
        · exact absurd hdid.symm hid
      · rintro ⟨hd, hdid⟩
        exact ⟨.inl hd, hdid⟩

theorem mem_of_add {s s' : Schedule κ} {c d : Command κ} (h : s.add c = .ok s')
    (hd : d ∈ s'.commands) : d ∈ s.commands ∨ d = c := by
  have hget : s'.get? d.id = some d := get?_eq_some_iff.mpr ⟨hd, rfl⟩
  rw [(get?_of_add h).2] at hget
  split at hget
  · exact .inr (Option.some.inj hget).symm
  · exact .inl (get?_eq_some_iff.mp hget).1

end Schedule

end Orrery
