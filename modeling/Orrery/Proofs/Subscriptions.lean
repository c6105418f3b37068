import Orrery.Proofs.Delivery

/-!
# Event tables as lists of registrations

An event table keeps the subscriptions of an entity by kind, and a kind stays in it when the last
one to it has gone.  It behaves like one list of registrations, to which subscribing appends and
from which the removals filter: it answers every change as the list does, and has for every kind the
registrations of the list, in the order of the list (`EventTable.refines_list`).
-/

namespace Orrery

/-- A subscription with the kind of event that it is to. -/
structure Registration where
  kind : EventKind
  subscription : Subscription
deriving DecidableEq

namespace EventTable

/-- A change of the subscriptions of one entity. -/
inductive Change where
  | subscribe (kind : EventKind) (s : Subscription)
  | dropKind (kind : EventKind) (subscriber : String)
  | unsubscribe (subscriber : String)

namespace Change

/-- Whether the change drops a registration. -/
def drops : Change → Registration → Bool
  | subscribe _ _, _ => false
  | dropKind kind subscriber, r => r.kind = kind && r.subscription.subscriber = subscriber
  | unsubscribe subscriber, r => r.subscription.subscriber = subscriber

/-- What the change does to a list of registrations: it appends one, or drops some and tells how
many these were. -/
def onList (c : Change) (l : List Registration) : Option Nat × List Registration :=
  match c with
  | subscribe kind s => (none, l ++ [⟨kind, s⟩])
  | dropKind _ _ | unsubscribe _ => (some (l.countP c.drops), l.filter (! c.drops ·))

/-- What the change does to a table. -/
def onTable (c : Change) (t : EventTable) : Option Nat × EventTable :=
  match c with
  | subscribe kind s => (none, t.subscribe kind s)
  | dropKind kind subscriber => (t.dropKind kind subscriber).map some id
  | unsubscribe subscriber => (t.unsubscribe subscriber).map some id

end Change

/-- The registrations of a table, kind by kind. -/
def registrations (t : EventTable) : List Registration :=
  (t.table.map fun kind ss => ss.map (Registration.mk kind)).entries.flatMap (·.2)

/-- For every kind the table has the registrations of the list, in the order of the list. -/
def Lists (t : EventTable) (l : List Registration) : Prop :=
  ∀ kind, t.subscriptions kind = (l.filter (·.kind = kind)).map (·.subscription)

variable {t : EventTable} {l : List Registration}

theorem lists_nil : ({} : EventTable).Lists [] := fun _ => rfl

theorem filter_registrations (kind : EventKind) :
    t.registrations.filter (·.kind = kind) = (t.subscriptions kind).map (Registration.mk kind) := by
  unfold registrations subscriptions
  rw [Table.filter_flatMap _ (f := fun rs => rs) (k := kind), Table.get?_map_with_key]
  · cases t.table.get? kind with
    | none => rfl
    | some ss => simp [List.filter_eq_self]
  · intro j rs hentry hj
    obtain ⟨⟨k, ss⟩, -, he⟩ := List.mem_map.mp hentry
    cases he
    simp [List.filter_eq_nil_iff, hj]

theorem map_registrations : t.registrations.map (·.subscription) = t.table.values.flatten := by
  simp [registrations, Table.map, Table.values, List.flatMap_def, Function.comp_def]

/-- A table has the registrations that it lists, each as often as it lists it. -/
theorem Lists.perm (h : t.Lists l) : t.registrations.Perm l := by
  rw [List.perm_iff_count]
  intro r
  have hcount : ∀ rs : List Registration, (rs.filter (·.kind = r.kind)).count r = rs.count r :=
    fun rs => List.count_filter (decide_eq_true rfl)
  have hsame : t.registrations.filter (·.kind = r.kind) = l.filter (·.kind = r.kind) := by
    rw [filter_registrations, h r.kind, List.map_map]
    refine (List.map_congr_left fun r' hr' => ?_).trans (List.map_id _)
    have hr' := of_decide_eq_true (List.mem_filter.mp hr').2
    show Registration.mk r.kind r'.subscription = r'
    rw [← hr']
  rw [← hcount, hsame, hcount]

theorem Lists.size_eq (h : t.Lists l) : t.size = l.length := by
  rw [size, ← map_registrations, List.length_map, h.perm.length_eq]

theorem Lists.isEmpty_eq (h : t.Lists l) : t.isEmpty = l.isEmpty := by
  rw [isEmpty, h.size_eq]
  cases l <;> rfl

theorem subscriptions_subscribe (kind : EventKind) (s : Subscription) (k : EventKind) :
    (t.subscribe kind s).subscriptions k =
      if k = kind then t.subscriptions k ++ [s] else t.subscriptions k := by
  unfold subscribe subscriptions
  rw [Table.get?_insert]
  split
  · next hk => rw [hk, Option.getD_some]
  · rfl

theorem Lists.subscribe (h : t.Lists l) (kind : EventKind) (s : Subscription) :
    (t.subscribe kind s).Lists (l ++ [⟨kind, s⟩]) := by
  intro k
  rw [subscriptions_subscribe, h k, List.filter_append, List.map_append]
  by_cases hk : k = kind
  · simp [hk]
  · simp [hk, Ne.symm hk]

/-- What is retained of a table is listed by what is retained of the list. -/
theorem Lists.retain (h : t.Lists l) (p : EventKind → String → Bool) :
    (t.retain p).Lists (l.filter fun r => p r.kind r.subscription.subscriber) := by
  intro kind
  rw [subscriptions_retain, h kind, List.filter_map, List.filter_filter, List.filter_filter]
  congr 1
  refine List.filter_congr fun r _ => ?_
  by_cases hr : r.kind = kind <;> simp [hr]

/-- How many subscriptions of a list satisfy `p`. -/
theorem Lists.countP_eq (h : t.Lists l) (p : Subscription → Bool) :
    t.table.values.flatten.countP p = l.countP fun r => p r.subscription := by
  rw [← map_registrations, List.countP_map, h.perm.countP_eq]
  rfl

theorem Lists.countP_subscriptions (h : t.Lists l) (kind : EventKind) (p : Subscription → Bool) :
    (t.subscriptions kind).countP p = l.countP fun r => r.kind = kind && p r.subscription := by
  rw [h kind, List.countP_map, List.countP_filter]
  refine List.countP_congr fun r _ => ?_
  simp [and_comm]

/-- A change does to the table what it does to the list, with the same answer. -/
theorem Lists.change (h : t.Lists l) (c : Change) :
    (c.onTable t).1 = (c.onList l).1 ∧ (c.onTable t).2.Lists (c.onList l).2 := by
  cases c with
  | subscribe kind s => exact ⟨rfl, h.subscribe kind s⟩
  | dropKind kind subscriber =>
    refine ⟨congrArg some (h.countP_subscriptions kind (·.subscriber == subscriber)), ?_⟩
    show (t.dropKind kind subscriber).2.Lists _
    rw [dropKind_eq_retain]
    exact h.retain fun k s => !(k = kind && s = subscriber)
  | unsubscribe subscriber =>
    exact ⟨congrArg some (h.countP_eq (·.subscriber == subscriber)),
      h.retain fun _ s => s != subscriber⟩

/-- If a table lists the same as a list of registrations, it does so after any changes of both, and
every removal has told how many registrations it has dropped from the list.  So the table then has
for every kind the subscriptions of the list to it, in the order of the list, as many as the list in
all, and none just if the list is empty. -/
theorem refines_list (t : EventTable) (l : List Registration) (h : t.Lists l)
    (changes : List Change) :
    let after := askAll Change.onTable changes t
    let expected := askAll Change.onList changes l
    after.1 = expected.1 ∧
      (∀ kind, after.2.subscriptions kind =
        (expected.2.filter (·.kind = kind)).map (·.subscription)) ∧
      after.2.size = expected.2.length ∧ after.2.isEmpty = expected.2.isEmpty := by
  intro after expected
  obtain ⟨hanswers, hlists⟩ := askAll_rel (R := Lists) (fun c _ _ h => h.change c) changes h
  exact ⟨hanswers, hlists, hlists.size_eq, hlists.isEmpty_eq⟩

/-! ### A lobby -/

namespace Lobby

/-- Two guests come, one of them for two kinds of event and twice for the first of these.  This one
leaves, the first kind first. -/
def changes : List Change :=
  [.subscribe .attacked ⟨"ann", ⟨1⟩⟩, .subscribe .defended ⟨"ann", ⟨1⟩⟩,
    .subscribe .attacked ⟨"bob", ⟨2⟩⟩, .subscribe .attacked ⟨"ann", ⟨3⟩⟩,
    .dropKind .attacked "ann", .unsubscribe "ann"]

end Lobby

open Lobby in
/-- What the first one leaves is told twice, and the second one stays. -/
theorem refines_list_lobby :
    (askAll Change.onTable changes {}).1 = [none, none, none, none, some 2, some 1] ∧
      (askAll Change.onTable changes {}).2.subscriptions .attacked = [⟨"bob", ⟨2⟩⟩] ∧
      (askAll Change.onTable changes {}).2.size = 1 ∧
      (askAll Change.onTable changes {}).2.isEmpty = false := by
  obtain ⟨hanswers, hsubscriptions, hsize, hempty⟩ := refines_list {} [] lists_nil changes
  have hanswer : (askAll Change.onList changes []).1 =
      [none, none, none, none, some 2, some 1] := by decide
  have hleft : (askAll Change.onList changes []).2 = [⟨.attacked, ⟨"bob", ⟨2⟩⟩⟩] := by decide
  rw [hleft] at hsubscriptions hsize hempty
  exact ⟨hanswers.trans hanswer, hsubscriptions .attacked, hsize, hempty⟩

end EventTable
end Orrery
