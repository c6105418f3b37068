import Mathlib.Algebra.BigOperators.Group.List.Basic
import Mathlib.Algebra.GroupWithZero.Nat
import Mathlib.Data.List.Nodup
import Orrery.Table

/-!
# Look-up and sums in tables

A table is determined by its entries, of which there is one for each key.  So every operation is
characterised by what it does to `get?` (`get?_modify`, `get?_insert`, `get?_erase`), and a sum over
all entries changes under an operation by what happens to the one entry concerned (`sum_modify`,
`sum_insert`).
-/

namespace Orrery.Table

variable {κ α : Type} [DecidableEq κ]

/-! ### Look-up -/

omit [DecidableEq κ] in
/-- Two entries under one key are the same entry. -/
theorem eq_of_mem_entries {t : Table κ α} {k : κ} {v w : α} (hv : (k, v) ∈ t.entries)
    (hw : (k, w) ∈ t.entries) : v = w :=
  congrArg Prod.snd (List.inj_on_of_nodup_map t.nodup hv hw rfl)

theorem get?_eq_some_iff {t : Table κ α} {k : κ} {v : α} :
    t.get? k = some v ↔ (k, v) ∈ t.entries := by
  unfold get?
  constructor
  · intro h
    obtain ⟨e, he, rfl⟩ := Option.map_eq_some_iff.mp h
    have hk : e.1 = k := by simpa using List.find?_some he
    rw [← hk]
    exact List.mem_of_find?_eq_some he
  · intro h
    have hsome : (t.entries.find? fun e => e.1 = k).isSome := by
      rw [List.find?_isSome]
      exact ⟨_, h, by simp⟩
    obtain ⟨e, he⟩ := Option.isSome_iff_exists.mp hsome
    have hk : e.1 = k := by simpa using List.find?_some he
    have hmem : (k, e.2) ∈ t.entries := by
      rw [← hk]
      exact List.mem_of_find?_eq_some he
    rw [he, Option.map_some, eq_of_mem_entries hmem h]

theorem contains_iff {t : Table κ α} {k : κ} : t.contains k = true ↔ (t.get? k).isSome := by
  simp [contains, get?, List.find?_isSome]

theorem contains_eq_false_iff {t : Table κ α} {k : κ} :
    t.contains k = false ↔ t.get? k = none := by
  rw [← Option.not_isSome_iff_eq_none, ← contains_iff, Bool.not_eq_true]

theorem get?_modify (t : Table κ α) (k : κ) (f : α → α) (j : κ) :
    (t.modify k f).get? j = if j = k then (t.get? j).map f else t.get? j := by
  apply Option.ext
  intro v
  rw [get?_eq_some_iff]
  by_cases hj : j = k
  · subst hj
    simp only [modify, List.mem_map, ↓reduceIte, Option.map_eq_some_iff, get?_eq_some_iff]
    constructor
    · rintro ⟨⟨j', w⟩, he, h⟩
      by_cases hk : j' = j
      · subst hk
        simp only [↓reduceIte, Prod.mk.injEq, true_and] at h
        exact ⟨w, he, h⟩
      · simp only [if_neg hk, Prod.mk.injEq] at h
        exact absurd h.1 hk
    · rintro ⟨w, hw, rfl⟩
      exact ⟨(j, w), hw, by simp⟩
  · simp only [modify, List.mem_map, if_neg hj, get?_eq_some_iff]
    constructor
    · rintro ⟨⟨j', w⟩, he, h⟩
      by_cases hk : j' = k
      · simp only [if_pos hk, Prod.mk.injEq] at h
        exact absurd (h.1 ▸ hk) hj
      · rw [if_neg hk] at h
        exact h ▸ he
    · intro h
      exact ⟨(j, v), h, by simp [hj]⟩

theorem insert_of_get?_none {t : Table κ α} {k : κ} {v : α} (h : t.get? k = none) :
    (t.insert k v).entries = t.entries ++ [(k, v)] := by
  rw [← contains_eq_false_iff] at h
  simp [insert, h]

theorem insert_of_get?_some {t : Table κ α} {k : κ} {v w : α} (h : t.get? k = some w) :
    t.insert k v = t.modify k fun _ => v := by
  have hc : t.contains k = true := contains_iff.mpr (by rw [h]; rfl)
  simp [insert, hc]

theorem get?_insert (t : Table κ α) (k : κ) (v : α) (j : κ) :
    (t.insert k v).get? j = if j = k then some v else t.get? j := by
  cases hk : t.get? k with
  | some w =>
    rw [insert_of_get?_some hk, get?_modify]
    split
    · next hj => rw [hj, hk, Option.map_some]
    · rfl
  | none =>
    apply Option.ext
    intro w
    rw [get?_eq_some_iff, insert_of_get?_none hk, List.mem_append, List.mem_singleton,
      Prod.mk.injEq, ← get?_eq_some_iff]
    by_cases hj : j = k
    · subst hj
      simp [hk, eq_comm]
    · simp [hj]

theorem get?_erase (t : Table κ α) (k j : κ) :
    (t.erase k).get? j = if j = k then none else t.get? j := by
  apply Option.ext
  intro v
  by_cases hj : j = k <;> simp [get?_eq_some_iff, erase, hj]

/-! ### Entries -/

omit [DecidableEq κ] in
theorem ext_entries {t t' : Table κ α} (h : t.entries = t'.entries) : t = t' := by
  cases t
  cases t'
  cases h
  rfl

/-- Only what becomes of the value under the key matters. -/
theorem modify_congr {t : Table κ α} {k : κ} {f g : α → α}
    (h : ∀ v, t.get? k = some v → f v = g v) : t.modify k f = t.modify k g := by
  refine ext_entries (List.map_congr_left fun e he => ?_)
  by_cases hk : e.1 = k
  · rw [if_pos hk, if_pos hk, h e.2 (get?_eq_some_iff.mpr (hk ▸ he))]
  · rw [if_neg hk, if_neg hk]

theorem modify_of_get?_none {t : Table κ α} {k : κ} (h : t.get? k = none) (f : α → α) :
    t.modify k f = t := by
  refine ext_entries ((List.map_congr_left fun e he => if_neg ?_).trans (List.map_id _))
  rintro rfl
  rw [get?_eq_some_iff.mpr he] at h
  cases h

/-- Changes can be made in any order, if those of one value can. -/
theorem modify_comm (t : Table κ α) {j k : κ} {f g : α → α}
    (h : j = k → ∀ v, f (g v) = g (f v)) :
    (t.modify j f).modify k g = (t.modify k g).modify j f := by
  refine ext_entries ?_
  simp only [modify, List.map_map]
  refine List.map_congr_left fun e _ => ?_
  simp only [Function.comp_apply]
  by_cases hj : e.1 = j <;> by_cases hk : e.1 = k
  · simp only [if_pos hj, if_pos hk, h (hj.symm.trans hk)]
  · simp only [if_pos hj, if_neg hk]
  · simp only [if_neg hj, if_pos hk]
  · simp only [if_neg hj, if_neg hk]

theorem get?_of_entries {t : Table κ α} {k : κ} {v : α} {front back : List (κ × α)}
    (h : t.entries = front ++ (k, v) :: back) : t.get? k = some v :=
  get?_eq_some_iff.mpr (by simp [h])

/-- Nothing is under a key that another table has under it after all entries of this one. -/
theorem get?_eq_none_of_append {t t' : Table κ α} {k : κ} {v : α} {rest : List (κ × α)}
    (h : t'.entries = t.entries ++ (k, v) :: rest) : t.get? k = none := by
  have hnodup := t'.nodup
  rw [h, List.map_append, List.nodup_append] at hnodup
  cases hk : t.get? k with
  | none => rfl
  | some w =>
    have hmem : k ∈ t.entries.map (·.1) := List.mem_map_of_mem (get?_eq_some_iff.mp hk)
    exact absurd rfl (hnodup.2.2 k hmem k (by simp))

/-- Tables with the same entries have the same look-ups. -/
theorem get?_of_perm {t t' : Table κ α} (h : t.entries.Perm t'.entries) (k : κ) :
    t.get? k = t'.get? k := by
  apply Option.ext
  intro v
  rw [get?_eq_some_iff, get?_eq_some_iff, h.mem_iff]

theorem get?_of_entries_map {β : Type} {t : Table κ α} {t' : Table κ β} {f : α → β}
    (h : t'.entries = t.entries.map fun e => (e.1, f e.2)) (k : κ) :
    t'.get? k = (t.get? k).map f := by
  apply Option.ext
  intro v
  simp only [get?_eq_some_iff, h, List.mem_map, Prod.mk.injEq, Option.map_eq_some_iff]
  constructor
  · rintro ⟨⟨j, w⟩, he, rfl, rfl⟩
    exact ⟨w, he, rfl⟩
  · rintro ⟨w, hw, rfl⟩
    exact ⟨(k, w), hw, rfl, rfl⟩

theorem entries_modify {t : Table κ α} {k : κ} {v : α} {front back : List (κ × α)}
    (h : t.entries = front ++ (k, v) :: back) (f : α → α) :
    (t.modify k f).entries = front ++ (k, f v) :: back := by
  have hnodup := t.nodup
  rw [h, List.map_append, List.map_cons, List.nodup_append, List.nodup_cons] at hnodup
  obtain ⟨-, ⟨hback, -⟩, hfront⟩ := hnodup
  -- no other entry is under the key
  have hsame : ∀ l : List (κ × α), (∀ e ∈ l, e.1 ≠ k) →
      (l.map fun e => if e.1 = k then (e.1, f e.2) else e) = l := fun l hl =>
    (List.map_congr_left fun e he => if_neg (hl e he)).trans (List.map_id l)
  show (t.entries.map fun e => if e.1 = k then (e.1, f e.2) else e) = _
  rw [h, List.map_append, List.map_cons, if_pos rfl, hsame front, hsame back]
  · intro e he hk
    subst hk
    exact hback (List.mem_map.mpr ⟨e, he, rfl⟩)
  · exact fun e he hk => hfront _ (List.mem_map_of_mem he) k (List.mem_cons_self ..) hk

theorem keys_modify (t : Table κ α) (k : κ) (f : α → α) : (t.modify k f).keys = t.keys := by
  simp only [keys, modify, List.map_map]
  refine List.map_congr_left fun e _ => ?_
  by_cases he : e.1 = k <;> simp [he]

theorem keys_erase (t : Table κ α) (k : κ) : (t.erase k).keys = t.keys.filter (· ≠ k) := by
  rw [keys, keys, erase, List.filter_map]
  rfl

/-- The values are what is found under some key. -/
theorem forall_mem_values_iff {t : Table κ α} {P : α → Prop} :
    (∀ v ∈ t.values, P v) ↔ ∀ k v, t.get? k = some v → P v := by
  simp only [values, List.forall_mem_map, Prod.forall, get?_eq_some_iff]

/-- Where every value tells its own key, the values are all that there is to know. -/
theorem entries_eq_map_values {t : Table κ α} {key : α → κ}
    (h : ∀ k v, t.get? k = some v → key v = k) : t.entries = t.values.map fun v => (key v, v) := by
  rw [values, List.map_map]
  refine ((List.map_congr_left fun e he => ?_).trans (List.map_id _)).symm
  exact Prod.ext (h e.1 e.2 (get?_eq_some_iff.mpr he)) rfl

/-- Inserting the entries of a table one after the other puts the table together again. -/
theorem foldl_insert {t t' : Table κ α} {l : List (κ × α)} (h : t'.entries = t.entries ++ l) :
    l.foldl (fun t e => t.insert e.1 e.2) t = t' := by
  induction l generalizing t with
  | nil => exact ext_entries (by rw [h, List.append_nil]; rfl)
  | cons e l ih =>
    have hinsert := insert_of_get?_none (v := e.2) (get?_eq_none_of_append h)
    exact ih (by rw [h, hinsert, List.append_assoc]; rfl)

/-! ### One entry among all -/

/-- Of the keys of the entries that satisfy `p`, a key is one at most. -/
theorem count_keys_filter (t : Table κ α) (p : α → Bool) (k : κ) :
    ((t.entries.filter fun e => p e.2).map (·.1)).count k = if (t.get? k).any p then 1 else 0 := by
  have hnodup : ((t.entries.filter fun e => p e.2).map (·.1)).Nodup :=
    t.nodup.sublist (List.filter_sublist.map _)
  have hmem : k ∈ (t.entries.filter fun e => p e.2).map (·.1) ↔ (t.get? k).any p = true := by
    simp only [List.mem_map, List.mem_filter, Option.any_eq_true, get?_eq_some_iff]
    constructor
    · rintro ⟨⟨j, v⟩, ⟨he, hp⟩, rfl⟩
      exact ⟨v, he, hp⟩
    · rintro ⟨v, he, hp⟩
      exact ⟨(k, v), ⟨he, hp⟩, rfl⟩
  by_cases hk : (t.get? k).any p = true
  · rw [if_pos hk, List.count_eq_one_of_mem hnodup (hmem.mpr hk)]
  · rw [if_neg hk, List.count_eq_zero.mpr (mt hmem.mp hk)]

/-- What satisfies `q` comes from one entry, if nothing that comes from another one does. -/
theorem filter_flatMap {β : Type} (t : Table κ α) {f : α → List β} {q : β → Bool} {k : κ}
    (h : ∀ j v, (j, v) ∈ t.entries → j ≠ k → (f v).filter q = []) :
    (t.entries.flatMap fun e => f e.2).filter q =
      ((t.get? k).map fun v => (f v).filter q).getD [] := by
  rw [List.filter_flatMap]
  cases hk : t.get? k with
  | none =>
    refine List.flatMap_eq_nil_iff.mpr fun e he => h e.1 e.2 he ?_
    rintro rfl
    rw [get?_eq_some_iff.mpr he] at hk
    cases hk
  | some v =>
    obtain ⟨front, back, hentries⟩ := List.append_of_mem (get?_eq_some_iff.mp hk)
    have hnodup := t.nodup
    rw [hentries, List.map_append, List.map_cons, List.nodup_middle, List.nodup_cons] at hnodup
    have hothers : ∀ e ∈ front ++ back, (f e.2).filter q = [] := by
      rintro ⟨j, w⟩ he
      have hmem : (j, w) ∈ t.entries := by
        rw [hentries, List.mem_append, List.mem_cons]
        exact (List.mem_append.mp he).imp_right Or.inr
      refine h j w hmem fun hj => hnodup.1 ?_
      rw [← hj, ← List.map_append]
      exact List.mem_map.mpr ⟨(j, w), he, rfl⟩
    obtain ⟨hfront, hback⟩ := List.forall_mem_append.mp hothers
    rw [hentries, List.flatMap_append, List.flatMap_cons, List.flatMap_eq_nil_iff.mpr hfront,
      List.flatMap_eq_nil_iff.mpr hback, List.nil_append, List.append_nil]
    rfl

/-! ### Replacing every value -/

section Map

variable {β : Type} (t : Table κ α) (g : α → β)

theorem get?_map (k : κ) : (t.map fun _ => g).get? k = (t.get? k).map g :=
  get?_of_entries_map rfl k

/-- What replaces a value may depend on the key as well. -/
theorem get?_map_with_key (f : κ → α → β) (k : κ) : (t.map f).get? k = (t.get? k).map (f k) := by
  apply Option.ext
  intro v
  simp only [get?_eq_some_iff, map, List.mem_map, Prod.mk.injEq, Option.map_eq_some_iff]
  constructor
  · rintro ⟨⟨j, w⟩, he, rfl, rfl⟩
    exact ⟨w, he, rfl⟩
  · rintro ⟨w, hw, rfl⟩
    exact ⟨(k, w), hw, rfl, rfl⟩

omit [DecidableEq κ] in
theorem keys_map : (t.map fun _ => g).keys = t.keys := by simp [keys, map, Function.comp_def]

omit [DecidableEq κ] in
theorem values_map : (t.map fun _ => g).values = t.values.map g := by
  simp [values, map, Function.comp_def]

theorem contains_map (k : κ) : (t.map fun _ => g).contains k = t.contains k := by
  simp [contains, map, Function.comp_def]

/-- What does the same to a replaced value as to the value before it was replaced can be done
first. -/
theorem modify_map {k : κ} {f : α → α} {f' : β → β} (h : ∀ v, f' (g v) = g (f v)) :
    (t.map fun _ => g).modify k f' = (t.modify k f).map fun _ => g := by
  refine ext_entries ?_
  simp only [modify, map, List.map_map]
  refine List.map_congr_left fun e _ => ?_
  by_cases he : e.1 = k <;> simp [he, h]

theorem replace_map (k : κ) (v : α) :
    (t.map fun _ => g).modify k (fun _ => g v) = (t.modify k fun _ => v).map fun _ => g :=
  t.modify_map g fun _ => rfl

theorem map_modify_eq {k : κ} {f : α → α} (h : ∀ v, t.get? k = some v → g (f v) = g v) :
    ((t.modify k f).map fun _ => g) = t.map fun _ => g := by
  refine ext_entries ?_
  simp only [modify, map, List.map_map]
  refine List.map_congr_left fun e he => ?_
  by_cases hk : e.1 = k
  · simp [hk, h e.2 (get?_eq_some_iff.mpr (hk ▸ he))]
  · simp [hk]

/-- What a change of one value leaves as it is. -/
theorem map_get?_modify {k : κ} {f : α → α} (h : ∀ v, t.get? k = some v → g (f v) = g v) (j : κ) :
    ((t.modify k f).get? j).map g = (t.get? j).map g := by
  rw [← get?_map, map_modify_eq t g h, get?_map]

theorem insert_map (k : κ) (v : α) :
    (t.map fun _ => g).insert k (g v) = (t.insert k v).map fun _ => g := by
  cases hk : t.get? k with
  | some w =>
    have hk' : (t.map fun _ => g).get? k = some (g w) := by rw [get?_map, hk, Option.map_some]
    rw [insert_of_get?_some hk, insert_of_get?_some hk']
    exact t.replace_map g k v
  | none =>
    have hk' : (t.map fun _ => g).get? k = none := by rw [get?_map, hk, Option.map_none]
    refine ext_entries ?_
    rw [insert_of_get?_none hk']
    simp [map, insert_of_get?_none hk]

theorem erase_map (k : κ) : (t.map fun _ => g).erase k = (t.erase k).map fun _ => g := by
  refine ext_entries ?_
  simp only [erase, map, List.filter_map]
  rfl

end Map

/-! ### Leaving keys out -/

section Restrict

/-- The entries under some keys only, in order. -/
def restrict (t : Table κ α) (p : κ → Bool) : Table κ α where
  entries := t.entries.filter fun e => p e.1
  nodup := t.nodup.sublist (List.filter_sublist.map _)

variable (t : Table κ α) {p : κ → Bool} {k : κ}

theorem get?_restrict (p : κ → Bool) (k : κ) :
    (t.restrict p).get? k = if p k then t.get? k else none := by
  apply Option.ext
  intro v
  by_cases hk : p k = true <;> simp [get?_eq_some_iff, restrict, hk]

theorem modify_restrict (p : κ → Bool) (k : κ) (f : α → α) :
    (t.restrict p).modify k f = (t.modify k f).restrict p := by
  refine ext_entries ?_
  simp only [modify, restrict, List.filter_map]
  -- a replaced value has the same key
  refine congrArg (List.map _) (List.filter_congr fun e _ => ?_)
  by_cases he : e.1 = k <;> simp [he]

theorem restrict_modify_of_not (hk : p k = false) (f : α → α) :
    (t.modify k f).restrict p = t.restrict p := by
  rw [← modify_restrict]
  refine ext_entries ?_
  refine (List.map_congr_left fun e he => if_neg ?_).trans (List.map_id _)
  rintro rfl
  rw [(List.mem_filter.mp he).2] at hk
  cases hk

theorem insert_restrict (hk : p k = true) (v : α) :
    (t.restrict p).insert k v = (t.insert k v).restrict p := by
  have hget : (t.restrict p).get? k = t.get? k := by rw [get?_restrict, if_pos hk]
  cases hfound : t.get? k with
  | some w =>
    rw [insert_of_get?_some hfound, insert_of_get?_some (hget.trans hfound), modify_restrict]
  | none =>
    refine ext_entries ?_
    rw [insert_of_get?_none (hget.trans hfound)]
    simp [restrict, insert_of_get?_none hfound, hk]

theorem restrict_insert_of_not (hk : p k = false) (v : α) :
    (t.insert k v).restrict p = t.restrict p := by
  cases hfound : t.get? k with
  | some w => rw [insert_of_get?_some hfound, restrict_modify_of_not t hk]
  | none =>
    refine ext_entries ?_
    simp [restrict, insert_of_get?_none hfound, hk]

end Restrict

/-! ### Sums -/

/-- The sum of a quantity over all entries. -/
def sum (t : Table κ α) (g : κ → α → Nat) : Nat := (t.entries.map fun e => g e.1 e.2).sum

/-- A sum over a table, with the entry under one key apart. -/
theorem sum_eq_add (t : Table κ α) (g : κ → α → Nat) {k : κ} {v : α} (h : t.get? k = some v) :
    t.sum g = g k v + (t.erase k).sum g := by
  -- both lists have no duplicates, so it is enough that they have the same entries
  have hperm : t.entries.Perm ((k, v) :: (t.erase k).entries) := by
    apply (List.perm_ext_iff_of_nodup (List.Nodup.of_map _ t.nodup) ?_).mpr
    · rintro ⟨j, w⟩
      simp only [List.mem_cons, Prod.mk.injEq, ← get?_eq_some_iff, get?_erase]
      by_cases hj : j = k
      · subst hj
        simp [h, eq_comm]
      · simp [hj]
    · rw [List.nodup_cons]
      refine ⟨?_, List.Nodup.of_map _ (t.erase k).nodup⟩
      rw [← get?_eq_some_iff, get?_erase, if_pos rfl]
      simp
  unfold sum
  rw [(hperm.map _).sum_eq, List.map_cons, List.sum_cons]

theorem sum_erase_of_get?_none (t : Table κ α) (g : κ → α → Nat) {k : κ} (h : t.get? k = none) :
    (t.erase k).sum g = t.sum g := by
  have hentries : (t.erase k).entries = t.entries := by
    rw [erase, List.filter_eq_self]
    rintro ⟨j, w⟩ he
    have hj : j ≠ k := by
      rintro rfl
      rw [← get?_eq_some_iff, h] at he
      cases he
    simpa using hj
  rw [sum, hentries, sum]

theorem erase_modify (t : Table κ α) (k : κ) (f : α → α) :
    ((t.modify k f).erase k).entries = (t.erase k).entries := by
  simp only [erase, modify]
  induction t.entries with
  | nil => rfl
  | cons e rest ih =>
    by_cases he : e.1 = k <;> simp_all

/-- Replacing one value changes a sum by the difference of the two. -/
theorem sum_modify (t : Table κ α) (g : κ → α → Nat) {k : κ} {v : α} (f : α → α)
    (h : t.get? k = some v) : (t.modify k f).sum g + g k v = t.sum g + g k (f v) := by
  -- take the entry apart on both sides: what remains is the same
  have hnew : (t.modify k f).get? k = some (f v) := by
    rw [get?_modify, if_pos rfl, h, Option.map_some]
  rw [sum_eq_add _ g hnew, sum_eq_add t g h]
  have hrest : ((t.modify k f).erase k).sum g = (t.erase k).sum g := by
    rw [sum, sum, erase_modify]
  omega

theorem sum_insert_of_get?_none (t : Table κ α) (g : κ → α → Nat) {k : κ} (v : α)
    (h : t.get? k = none) : (t.insert k v).sum g = t.sum g + g k v := by
  simp [sum, insert_of_get?_none h]

/-- A modification that changes no value's contribution leaves a sum as it is. -/
theorem sum_modify_eq (t : Table κ α) (g : κ → α → Nat) (k : κ) (f : α → α)
    (h : ∀ v, t.get? k = some v → g k (f v) = g k v) : (t.modify k f).sum g = t.sum g := by
  cases hk : t.get? k with
  | some v =>
    have hsum := t.sum_modify g f hk
    have hv := h v hk
    omega
  | none =>
    have hnew : (t.modify k f).get? k = none := by
      rw [get?_modify, if_pos rfl, hk, Option.map_none]
    rw [← sum_erase_of_get?_none _ g hnew, ← sum_erase_of_get?_none t g hk, sum, sum, erase_modify]

theorem sum_insert (t : Table κ α) (g : κ → α → Nat) (k : κ) (v : α) :
    (t.insert k v).sum g + ((t.get? k).map (g k)).getD 0 = t.sum g + g k v := by
  cases hk : t.get? k with
  | none => rw [sum_insert_of_get?_none t g v hk, Option.map_none, Option.getD_none, Nat.add_zero]
  | some w =>
    rw [insert_of_get?_some hk, Option.map_some, Option.getD_some, sum_modify t g (fun _ => v) hk]

/-- A sum to which one entry alone contributes. -/
theorem sum_ite_eq (t : Table κ α) (g : α → Nat) (k : κ) :
    (t.sum fun j v => if j = k then g v else 0) = ((t.get? k).map g).getD 0 := by
  -- no entry but that of `k` contributes
  have hrest : ((t.erase k).sum fun j v => if j = k then g v else 0) = 0 := by
    unfold sum
    refine List.sum_eq_zero fun n hn => ?_
    obtain ⟨⟨j, v⟩, he, rfl⟩ := List.mem_map.mp hn
    exact if_neg (by simpa using (List.mem_filter.mp he).2)
  cases hk : t.get? k with
  | none => rw [← sum_erase_of_get?_none t _ hk, hrest, Option.map_none, Option.getD_none]
  | some v => rw [sum_eq_add t _ hk, hrest, if_pos rfl, Option.map_some, Option.getD_some]; rfl

end Orrery.Table
