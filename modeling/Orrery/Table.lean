/-!
# Tables in order of arrival

A `Table` maps keys to values and keeps its entries in the order in which the keys first arrived.
Replacing a value moves nothing, and removing an entry keeps the others in order.
-/

namespace Orrery

/-- Values under keys, in the order of arrival of the keys. -/
structure Table (κ α : Type) where
  /-- The entries, oldest first. -/
  entries : List (κ × α) := []
  /-- No key has two entries. -/
  nodup : (entries.map (·.1)).Nodup := by exact List.nodup_nil
deriving DecidableEq

namespace Table

variable {κ α β : Type} [DecidableEq κ]

/-- The keys, oldest first. -/
def keys (t : Table κ α) : List κ := t.entries.map (·.1)

/-- The values, oldest key first. -/
def values (t : Table κ α) : List α := t.entries.map (·.2)

/-- Number of entries. -/
def size (t : Table κ α) : Nat := t.entries.length

/-- Whether there is no entry. -/
def isEmpty (t : Table κ α) : Bool := t.entries.isEmpty

/-- The value under a key. -/
def get? (t : Table κ α) (k : κ) : Option α := (t.entries.find? fun e => e.1 = k).map (·.2)

/-- Whether there is a value under a key. -/
def contains (t : Table κ α) (k : κ) : Bool := t.entries.any fun e => e.1 = k

/-- Replaces the value under a key; does nothing if there is none. -/
def modify (t : Table κ α) (k : κ) (f : α → α) : Table κ α where
  entries := t.entries.map fun e => if e.1 = k then (e.1, f e.2) else e
  nodup := by
    have h : ((·.1) ∘ fun e : κ × α => if e.1 = k then (e.1, f e.2) else e) = (·.1) := by
      funext e
      by_cases he : e.1 = k <;> simp [he]
    rw [List.map_map, h]
    exact t.nodup

/-- Puts a value under a key: in place if there is one already, at the end otherwise. -/
def insert (t : Table κ α) (k : κ) (v : α) : Table κ α :=
  if h : t.contains k then t.modify k fun _ => v
  else
    { entries := t.entries ++ [(k, v)]
      nodup := by
        simp only [contains, List.any_eq_true, decide_eq_true_eq, not_exists, not_and] at h
        rw [List.map_append, List.nodup_append]
        refine ⟨t.nodup, by simp, ?_⟩
        simp only [List.map_cons, List.map_nil, List.mem_map, List.mem_singleton]
        rintro _ ⟨e, he, rfl⟩ _ rfl
        exact h e he }

/-- Removes the entry under a key. -/
def erase (t : Table κ α) (k : κ) : Table κ α where
  entries := t.entries.filter fun e => e.1 ≠ k
  nodup := t.nodup.sublist (List.filter_sublist.map _)

/-- Replaces every value. -/
def map (t : Table κ α) (f : κ → α → β) : Table κ β where
  entries := t.entries.map fun e => (e.1, f e.1 e.2)
  nodup := by
    rw [List.map_map]
    exact t.nodup

end Table

end Orrery
