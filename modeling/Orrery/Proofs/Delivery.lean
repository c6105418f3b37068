import Orrery.Proofs.Career
import Orrery.Proofs.Commute

/-!
# Deliveries

The announcements of an operation are made in order, each to its listeners in the order of
registration.  So all of them together are one list of tellings, and every one of these happens
whatever is replied to the others (`World.askAll_announce`).  Afterwards a subscription is dropped
if and only if its subscriber was revoked in a reply to an event of the same kind of the same entity
(`Entities.prune_eq_retain`), and the number of those is reported (`World.deliver_exact`).
-/

namespace Orrery

variable {κ ε : Type}

/-! ### Questions -/

section Questions

variable {σ ι ι' ρ ρ' : Type} {ask : ι → σ → ρ × σ}

theorem length_askAll (is : List ι) (s : σ) : (askAll ask is s).1.length = is.length := by
  induction is generalizing s with
  | nil => rfl
  | cons i is ih => exact congrArg (· + 1) (ih _)

theorem askAll_append (is js : List ι) (s : σ) :
    askAll ask (is ++ js) s =
      ((askAll ask is s).1 ++ (askAll ask js (askAll ask is s).2).1,
        (askAll ask js (askAll ask is s).2).2) := by
  induction is generalizing s with
  | nil => rfl
  | cons i is ih =>
    rw [List.cons_append]
    simp only [askAll, ih, List.cons_append]

theorem askAll_map (f : ι' → ι) (is : List ι') (s : σ) :
    askAll ask (is.map f) s = askAll (fun i => ask (f i)) is s := by
  induction is generalizing s with
  | nil => rfl
  | cons i is ih =>
    rw [List.map_cons]
    simp only [askAll, ih]

/-- Questions to two states that are related and answer alike. -/
theorem askAll_rel {σ' : Type} {ask' : ι → σ' → ρ × σ'} {R : σ → σ' → Prop}
    (hask : ∀ i s s', R s s' → (ask i s).1 = (ask' i s').1 ∧ R (ask i s).2 (ask' i s').2)
    (is : List ι) {s : σ} {s' : σ'} (h : R s s') :
    (askAll ask is s).1 = (askAll ask' is s').1 ∧ R (askAll ask is s).2 (askAll ask' is s').2 := by
  induction is generalizing s s' with
  | nil => exact ⟨rfl, h⟩
  | cons i is ih =>
    obtain ⟨hanswer, hnext⟩ := hask i s s' h
    obtain ⟨hanswers, hlast⟩ := ih hnext
    exact ⟨congrArg₂ List.cons hanswer hanswers, hlast⟩

end Questions

/-! ### Tellings -/

/-- One listener is told of one event. -/
structure Telling where
  subscription : Subscription
  event : EntityEvent
deriving DecidableEq

/-- What is heard of a telling. -/
def Telling.heard (t : Telling) : ListenerId × EntityEvent := (t.subscription.listener, t.event)

/-- Every listener is told, in the order of registration. -/
def Announcement.tellings (a : Announcement) : List Telling :=
  a.subscriptions.map fun s => ⟨s, a.event⟩

/-- Whether some listener that was told of an event of this kind of this entity replied that the
subscriber is revoked. -/
def revokes (told : List (Telling × Reply)) (id : EntityId) (kind : EventKind)
    (subscriber : String) : Bool :=
  told.any fun (t, r) =>
    t.event.entity = id && t.event.kind = kind && r.revoked? = some subscriber

theorem revokes_append (told told' : List (Telling × Reply)) (id : EntityId) (kind : EventKind)
    (subscriber : String) : revokes (told ++ told') id kind subscriber =
      (revokes told id kind subscriber || revokes told' id kind subscriber) := List.any_append

namespace Announcement

/-- The replies to one announcement revoke whom their report says, on its own entity and for its own
kind of event. -/
theorem revokes_tellings (a : Announcement) {replies : List Reply}
    (h : replies.length = a.subscriptions.length) (id : EntityId) (kind : EventKind)
    (subscriber : String) : revokes (a.tellings.zip replies) id kind subscriber = true ↔
      a.event.entity = id ∧ a.event.kind = kind ∧
        subscriber ∈ (DispatchReport.ofReplies replies).revoked := by
  have hmem : subscriber ∈ (DispatchReport.ofReplies replies).revoked ↔
      ∃ r ∈ replies, r.revoked? = some subscriber := by
    simp [DispatchReport.ofReplies, List.mem_eraseDups]
  rw [hmem]
  unfold revokes tellings
  rw [List.zip_map_left, List.any_map]
  simp only [List.any_eq_true, Function.comp_apply, Bool.and_eq_true, decide_eq_true_eq]
  constructor
  · rintro ⟨⟨s, r⟩, hmem, ⟨hentity, hkind⟩, hrevoked⟩
    exact ⟨hentity, hkind, r, (List.of_mem_zip hmem).2, hrevoked⟩
  · rintro ⟨hentity, hkind, r, hr, hrevoked⟩
    -- every reply is that of some listener
    obtain ⟨i, hi, rfl⟩ := List.getElem_of_mem hr
    have hi' : i < a.subscriptions.length := h ▸ hi
    have hzip : (a.subscriptions[i], replies[i]) ∈ a.subscriptions.zip replies := by
      rw [← List.getElem_zip (h := by rw [List.length_zip]; omega)]
      exact List.getElem_mem _
    exact ⟨_, hzip, ⟨hentity, hkind⟩, hrevoked⟩

end Announcement

/-- What became of some announcements, in numbers. -/
theorem Delivery.ofReports_eq (reports : List DispatchReport) :
    Delivery.ofReports reports =
      { delivered := (reports.map (·.delivered)).sum
        failed := (reports.map (·.failed)).sum } := by
  have hfold : ∀ d : Delivery, reports.foldl (fun d r =>
      { d with delivered := d.delivered + r.delivered, failed := d.failed + r.failed }) d =
        { d with
          delivered := d.delivered + (reports.map (·.delivered)).sum
          failed := d.failed + (reports.map (·.failed)).sum } := by
    induction reports with
    | nil => exact fun d => rfl
    | cons r reports ih =>
      intro d
      rw [List.foldl_cons, ih]
      simp only [List.map_cons, List.sum_cons, Nat.add_assoc]
  rw [ofReports, hfold]
  simp

namespace World

/-- Tells one listener. -/
def hear (host : Host κ ε) (t : Telling) (w : World κ ε) : Reply × World κ ε :=
  host.hearEntity t.subscription.listener t.event w

/-- Makes announcements, as one list of tellings. -/
def hearAll (host : Host κ ε) (announcements : List Announcement) (w : World κ ε) :
    List Reply × World κ ε :=
  askAll (hear host) (announcements.flatMap Announcement.tellings) w

variable (host : Host κ ε)

theorem announce_eq (a : Announcement) (w : World κ ε) :
    announce host a w = (.ofReplies (askAll (hear host) a.tellings w).1,
      (askAll (hear host) a.tellings w).2) := by
  rw [Announcement.tellings, askAll_map]
  rfl

/-- Announcement after announcement is telling after telling: the same is replied and the same
world is left, and the reports add up to all replies and revoke whom some reply revokes. -/
theorem askAll_announce (announcements : List Announcement) (w : World κ ε) :
    let reports := (askAll (announce host) announcements w).1
    let replies := (hearAll host announcements w).1
    (askAll (announce host) announcements w).2 = (hearAll host announcements w).2 ∧
    (reports.map (·.delivered)).sum = replies.countP Reply.isOk ∧
    (reports.map (·.failed)).sum = replies.countP Reply.isFailure ∧
    ∀ id kind subscriber, ⟨id, kind, subscriber⟩ ∈ revocations announcements reports ↔
      revokes ((announcements.flatMap Announcement.tellings).zip replies) id kind subscriber =
        true := by
  unfold hearAll
  induction announcements generalizing w with
  | nil =>
    refine ⟨rfl, rfl, rfl, fun id kind subscriber => ?_⟩
    simp [revocations, revokes]
  | cons a announcements ih =>
    simp only [List.flatMap_cons, askAll_append, askAll, announce_eq]
    have hlength : (askAll (hear host) a.tellings w).1.length = a.tellings.length :=
      length_askAll a.tellings w
    rcases hfirst : askAll (hear host) a.tellings w with ⟨replies, w'⟩
    rw [hfirst] at hlength
    obtain ⟨hworld, hdelivered, hfailed, hrevoked⟩ := ih w'
    refine ⟨hworld, ?_, ?_, fun id kind subscriber => ?_⟩
    · rw [List.map_cons, List.sum_cons, hdelivered, List.countP_append]
      rfl
    · rw [List.map_cons, List.sum_cons, hfailed, List.countP_append]
      rfl
    · have hreplies : replies.length = a.subscriptions.length := by
        rw [hlength, Announcement.tellings, List.length_map]
      have hown := a.revokes_tellings hreplies id kind subscriber
      rw [List.zip_append hlength.symm, revokes_append, Bool.or_eq_true, ← hrevoked, hown]
      unfold revocations
      simp only [List.zip_cons_cons, List.flatMap_cons, List.mem_append, List.mem_map,
        EntityRevocation.mk.injEq]
      refine or_congr ?_ Iff.rfl
      constructor
      · rintro ⟨s, hs, rfl, rfl, rfl⟩
        exact ⟨rfl, rfl, hs⟩
      · rintro ⟨rfl, rfl, hs⟩
        exact ⟨_, hs, rfl, rfl, rfl⟩

end World

/-! ### Subscriptions -/

namespace EventTable

/-- The subscriptions whose subscriber satisfies `p` for their kind of event. -/
def retain (p : EventKind → String → Bool) (t : EventTable) : EventTable :=
  ⟨t.table.map fun kind ss => ss.filter fun s => p kind s.subscriber⟩

variable (t : EventTable)

theorem subscriptions_retain (p : EventKind → String → Bool) (kind : EventKind) :
    (t.retain p).subscriptions kind =
      (t.subscriptions kind).filter fun s => p kind s.subscriber := by
  unfold subscriptions retain
  rw [Table.get?_map_with_key]
  cases t.table.get? kind <;> rfl

theorem retain_retain (p q : EventKind → String → Bool) :
    (t.retain p).retain q =
      t.retain fun kind subscriber => p kind subscriber && q kind subscriber :=
  congrArg EventTable.mk (Table.ext_entries (by
    simp only [retain, Table.map, List.map_map]
    refine List.map_congr_left fun e _ => ?_
    simp only [Function.comp_apply, List.filter_filter, Bool.and_comm]))

theorem retain_true : (t.retain fun _ _ => true) = t := by
  refine congrArg EventTable.mk (Table.ext_entries ?_)
  simp [Table.map]

theorem dropKind_eq_retain (kind : EventKind) (subscriber : String) :
    (t.dropKind kind subscriber).2 = t.retain fun k s => !(k = kind && s = subscriber) := by
  refine congrArg EventTable.mk (Table.ext_entries (List.map_congr_left fun e _ => ?_))
  by_cases hkind : e.1 = kind
  · simp [hkind, bne, beq_eq_decide]
  · simp [hkind]

theorem size_eq_sum : t.size = t.table.sum fun _ ss => ss.length := by
  simp [size, Table.sum, Table.values, List.length_flatten, Function.comp_def]

/-- The subscriptions that are dropped and those that are left are all of them. -/
theorem dropKind_add_size (kind : EventKind) (subscriber : String) :
    (t.dropKind kind subscriber).1 + (t.dropKind kind subscriber).2.size = t.size := by
  rw [size_eq_sum, size_eq_sum]
  unfold dropKind subscriptions
  cases hkind : t.table.get? kind with
  | none =>
    rw [Table.modify_of_get?_none hkind]
    exact Nat.zero_add _
  | some ss =>
    have hsum := t.table.sum_modify (fun _ ss => ss.length)
      (·.filter (·.subscriber != subscriber)) hkind
    have hparts := ss.length_eq_length_filter_add (·.subscriber == subscriber)
    rw [← List.countP_eq_length_filter] at hparts
    simp only [Option.getD_some]
    simp only [bne] at hsum ⊢
    omega

end EventTable

namespace Entities

/-- The entities with those subscriptions whose subscriber satisfies `p` for the entity and the kind
of event. -/
def retain (p : EntityId → EventKind → String → Bool) (es : Entities) : Entities :=
  ⟨es.table.map fun id e => e.mapEvents (·.retain (p id))⟩

/-- Number of subscriptions. -/
def subscriptionCount (es : Entities) : Nat :=
  es.table.sum fun _ e => (e.events?.map EventTable.size).getD 0

variable (es : Entities)

theorem retain_retain (p q : EntityId → EventKind → String → Bool) :
    (es.retain p).retain q = es.retain fun id kind s => p id kind s && q id kind s := by
  refine congrArg Entities.mk (Table.ext_entries ?_)
  simp only [retain, Table.map, List.map_map]
  refine List.map_congr_left fun e _ => ?_
  cases he : e.2 <;>
    simp [he, Entity.mapEvents, Ship.mapEvents, EventTable.retain_retain]

theorem retain_true : (es.retain fun _ _ _ => true) = es := by
  refine congrArg Entities.mk (Table.ext_entries ?_)
  simp [Table.map, EventTable.retain_true, Entity.mapEvents_self]

/-- An entity without listeners has none to lose, and those of another one are left alone. -/
theorem retain_eq_self {r : EntityRevocation}
    (h : (es.get? r.entity).bind Entity.events? = none) :
    (es.retain fun id kind s => !(id = r.entity && kind = r.kind && s = r.subscriber)) = es := by
  refine congrArg Entities.mk (Table.ext_entries ?_)
  refine (List.map_congr_left fun e he => ?_).trans (List.map_id _)
  by_cases hid : e.1 = r.entity
  · have hget : es.get? r.entity = some e.2 := Table.get?_eq_some_iff.mpr (hid ▸ he)
    rw [hget] at h
    exact Prod.ext rfl (Entity.mapEvents_of_events?_eq_none h _)
  · simp [hid, EventTable.retain_true, Entity.mapEvents_self]

/-- Dropping the subscriptions of one subscriber to one kind of event of an entity leaves all
others. -/
theorem putEvents_dropKind {r : EntityRevocation} {events : EventTable}
    (h : (es.get? r.entity).bind Entity.events? = some events) :
    es.putEvents r.entity (events.dropKind r.kind r.subscriber).2 =
      es.retain fun id kind s => !(id = r.entity && kind = r.kind && s = r.subscriber) := by
  refine congrArg Entities.mk (Table.ext_entries (List.map_congr_left fun e he => ?_))
  by_cases hid : e.1 = r.entity
  · have hget : es.get? r.entity = some e.2 := Table.get?_eq_some_iff.mpr (hid ▸ he)
    rw [hget, Option.bind_some] at h
    rw [if_pos hid, EventTable.dropKind_eq_retain]
    cases hentity : e.2 <;> rw [hentity] at h <;> cases h <;>
      simp [hid, Entity.withEvents, Entity.mapEvents, Ship.mapEvents]
  · rw [if_neg hid]
    simp [hid, EventTable.retain_true, Entity.mapEvents_self]

/-- The number of subscriptions goes down by those that are dropped. -/
theorem add_subscriptionCount_putEvents {r : EntityRevocation} {events : EventTable}
    (h : (es.get? r.entity).bind Entity.events? = some events) :
    (events.dropKind r.kind r.subscriber).1 +
      (es.putEvents r.entity (events.dropKind r.kind r.subscriber).2).subscriptionCount =
        es.subscriptionCount := by
  obtain ⟨e, hget, hevents⟩ := Option.bind_eq_some_iff.mp h
  have hsum := es.table.sum_modify (fun _ e => (e.events?.map EventTable.size).getD 0)
    (Entity.withEvents (events.dropKind r.kind r.subscriber).2) hget
  have hsize := events.dropKind_add_size r.kind r.subscriber
  have hnew : (e.withEvents (events.dropKind r.kind r.subscriber).2).events? =
      some (events.dropKind r.kind r.subscriber).2 := by
    cases e <;> cases hevents <;> rfl
  rw [hevents, hnew, Option.map_some, Option.getD_some, Option.map_some, Option.getD_some] at hsum
  show _ + (es.table.modify r.entity _).sum _ = es.table.sum _
  omega

/-- In the midst of heeding revocations, the subscriptions that have been counted so far are
gone. -/
theorem foldl_prune (rs : List EntityRevocation) (count : Nat) :
    let pruned := rs.foldl (fun (count, es) r =>
      match (es.get? r.entity).bind Entity.events? with
      | none => (count, es)
      | some events =>
        let (dropped, events) := events.dropKind r.kind r.subscriber
        (count + dropped, es.putEvents r.entity events)) (count, es)
    pruned.2 = es.retain (fun id kind s => !decide (⟨id, kind, s⟩ ∈ rs)) ∧
      pruned.1 + pruned.2.subscriptionCount = count + es.subscriptionCount := by
  induction rs generalizing es count with
  | nil =>
    simp only [List.foldl_nil, List.not_mem_nil, decide_false, Bool.not_false, retain_true,
      and_self]
  | cons r rs ih =>
    have hcons : (fun id kind s => !decide ((⟨id, kind, s⟩ : EntityRevocation) ∈ r :: rs)) =
        fun id kind s => !(id = r.entity && kind = r.kind && s = r.subscriber) &&
          !decide ((⟨id, kind, s⟩ : EntityRevocation) ∈ rs) := by
      funext id kind s
      cases r
      simp only [List.mem_cons, EntityRevocation.mk.injEq, Bool.decide_or, Bool.decide_and,
        Bool.not_or, Bool.and_assoc]
    rw [List.foldl_cons, hcons, ← retain_retain]
    cases hevents : (es.get? r.entity).bind Entity.events? with
    | none =>
      simp only [hevents]
      rw [es.retain_eq_self hevents]
      exact ih es count
    | some events =>
      simp only [hevents]
      obtain ⟨hretain, hcount⟩ := ih (es.putEvents r.entity
        (events.dropKind r.kind r.subscriber).2) (count + (events.dropKind r.kind r.subscriber).1)
      have hdropped := es.add_subscriptionCount_putEvents hevents
      rw [← es.putEvents_dropKind hevents]
      exact ⟨hretain, hcount.trans (by omega)⟩

/-- Heeding some revocations drops the subscriptions that they name and no others, and the number of
those is told. -/
theorem prune_spec (rs : List EntityRevocation) :
    (es.prune rs).2 = es.retain (fun id kind s => !decide (⟨id, kind, s⟩ ∈ rs)) ∧
      (es.prune rs).1 + (es.prune rs).2.subscriptionCount = es.subscriptionCount := by
  obtain ⟨hretain, hcount⟩ := es.foldl_prune rs 0
  exact ⟨hretain, hcount.trans (Nat.zero_add _)⟩

end Entities

/-! ### What operations announce -/

namespace Deed

/-- The announcements of the events that a hook raises, to the listeners that their entities have
when the hook is done.  A hook changes no listeners. -/
def captured : Deed κ → List Announcement
  | turn .. => []
  | hook _ _ _ _ left => left.raised.filterMap left.entities.announcement?

end Deed

/-- What has been announced in the course of an operation are the events that hooks raised, to those
who listened then. -/
def Setting.IsCaptured (s : Setting κ ε) : Prop :=
  s.announcements = s.chronicle.flatMap Deed.captured

namespace Command.BuiltIn

variable {c : Command κ} {s : Setting κ ε} (host : CommandHost κ ε)

theorem isCaptured_run (hc : c.BuiltIn) (stage : Stage) (hs : s.IsCaptured) :
    (c.run host stage s).2.2.IsCaptured := by
  obtain ⟨acts, hacts⟩ := hc.exists_acts
  have hleft : ((acts stage).run.run s.scene).2.Announces :=
    Task.announces_acts (s := s.scene) hacts stage ⟨rfl, rfl⟩
  obtain ⟨progress, task⟩ := c
  unfold Setting.IsCaptured at hs ⊢
  unfold Scene.Announces at hleft
  cases task with
  | attack a | mining m =>
    cases hacts
    show s.announcements ++ _ = (s.chronicle ++ [_]).flatMap Deed.captured
    rw [hs, List.flatMap_append, List.flatMap_singleton]
    exact congrArg _ hleft
  | custom => cases hacts

theorem isCaptured_tick (hc : c.BuiltIn) (hs : s.IsCaptured) :
    (c.tick host s).2.2.IsCaptured := by
  refine (Command.tick_keeps (P := fun c s => c.BuiltIn ∧ s.IsCaptured) host
    (fun stage c s hcs => ?_) (fun _ _ _ hcs => hcs) ⟨hc, ?_⟩).2
  · rw [hcs.1.run_eq_self host stage s]
    exact ⟨hcs.1, hcs.1.isCaptured_run host stage hcs.2⟩
  · unfold Setting.IsCaptured at hs ⊢
    simp [Setting.note, hs, Deed.captured]

end Command.BuiltIn

namespace Session

variable (host : CommandHost κ ε) {x : Session κ ε}

theorem isCaptured_tick (hx : x.schedule.BuiltIn) (hs : x.setting.IsCaptured) :
    (x.tick host).2.setting.IsCaptured :=
  (tick_keeps host (fun _ s hc hs => ⟨hc.tick host s, hc.isCaptured_tick host hs⟩)
    (fun _ _ hc hs => hc.isCaptured_run host .stop hs) (fun _ _ hs => hs) hx hs).2

theorem isCaptured_meetRequests (hx : x.schedule.BuiltIn) (hs : x.setting.IsCaptured) :
    (x.meetRequests host).2.setting.IsCaptured :=
  (Sweep.meetRequests_keeps (Q := Command.BuiltIn) (w := { session := x })
    (fun _ _ hc hs => hc.isCaptured_run host .stop hs) (fun _ _ hs => hs) hx hs).2

end Session

namespace Operation

variable (host : CommandHost κ ε) (w : World κ ε)

/-- The announcements that an operation leads to. -/
def announcements : Operation κ ε → List Announcement
  | tick now =>
    match w.registry.check with
    | .ok () => ((w.session now).tick host).2.setting.announcements
    | .error _ => []
  | stopCommands now id =>
    match w.registry.check with
    | .ok () => ((w.stopping now id).meetRequests host).2.setting.announcements
    | .error _ => []
  | remove now id =>
    match w.registry.get id with
    | .ok _ => ((w.stopping now id).meetRequests host).2.setting.announcements
    | .error _ => []
  | transfer src dst material quantity =>
    match (w.registry.transfer w.tracker.coordinatesOf src dst material quantity).1 with
    | .ok announcements => announcements
    | .error _ => []
  | create _ | schedule _ | listen .. | drift .. => []

/-- The announcements of the events that an operation raises, to those who listened then. -/
def captured : Operation κ ε → List Announcement
  | transfer src dst material quantity =>
    match (w.registry.transfer w.tracker.coordinatesOf src dst material quantity).1 with
    | .ok _ => (Registry.transferEvents src dst material quantity).filterMap
        ((transfer src dst material quantity).commit host w).2.registry.entities.announcement?
    | .error _ => []
  | op => (op.commit host w).1.flatMap Deed.captured

/-- What is announced to whom is settled when the event occurs. -/
theorem announcements_eq_captured (hw : w.registry.schedule.BuiltIn) (op : Operation κ ε) :
    op.announcements host w = op.captured host w := by
  cases op with
  | create e =>
    simp only [announcements, captured, commit]
    cases w.registry.create e <;> rfl
  | schedule c =>
    simp only [announcements, captured, commit]
    cases w.registry.addCommand c <;> rfl
  | listen | drift => rfl
  | tick now =>
    simp only [announcements, captured, commit]
    cases w.registry.check with
    | error e => rfl
    | ok => exact Session.isCaptured_tick host (x := w.session now) hw rfl
  | stopCommands now id =>
    simp only [announcements, captured, commit]
    cases w.registry.check with
    | error e => rfl
    | ok => exact Session.isCaptured_meetRequests host (x := w.stopping now id) hw rfl
  | remove now id =>
    simp only [announcements, captured, commit]
    cases w.registry.get id with
    | error e => rfl
    | ok e => exact Session.isCaptured_meetRequests host (x := w.stopping now id) hw rfl
  | transfer src dst material quantity =>
    simp only [announcements, captured, commit]
    cases houtcome : (w.registry.transfer w.tracker.coordinatesOf src dst material quantity).1 with
    | error e => rfl
    | ok announcements =>
      unfold Registry.transfer at houtcome ⊢
      split at houtcome
      · cases houtcome
      · cases houtcome
      · simp only [] at houtcome ⊢
        split at houtcome
        · cases houtcome
        · next hmove =>
          cases houtcome
          rfl

end Operation

/-! ### Deliveries -/

/-- The surroundings keep a log of all that listeners of entities are told. -/
def Host.RecordsEvents (host : Host κ ε) (log : ε → List (ListenerId × EntityEvent)) : Prop :=
  ∀ listener event (w : World κ ε),
    log (host.hearEntity listener event w).2.outside = log w.outside ++ [(listener, event)]

namespace World

variable {host : Host κ ε} {log : ε → List (ListenerId × EntityEvent)}

theorem log_tellings (hlog : host.RecordsEvents log) (told : List Telling) (w : World κ ε) :
    log (askAll (hear host) told w).2.outside = log w.outside ++ told.map Telling.heard := by
  induction told generalizing w with
  | nil => rw [List.map_nil, List.append_nil]; rfl
  | cons t told ih =>
    have hrest := ih (hear host t w).2
    rw [hear, hlog, List.append_assoc] at hrest
    exact hrest

variable (host)

/-- Deliveries do not fail where the registry can be trusted. -/
theorem deliver_eq (announcements : List Announcement) {w w' : World κ ε} {replies : List Reply}
    (hheard : hearAll host announcements w = (replies, w')) (hw' : w'.registry.poisoned = false) :
    let kept := w'.registry.entities.retain fun id kind subscriber =>
      !revokes ((announcements.flatMap Announcement.tellings).zip replies) id kind subscriber
    ∃ delivery, w.deliver host announcements = (.ok delivery, w'.withEntities kept) ∧
      delivery.delivered = replies.countP Reply.isOk ∧
      delivery.failed = replies.countP Reply.isFailure ∧
      delivery.revoked + kept.subscriptionCount = w'.registry.entities.subscriptionCount := by
  intro kept
  obtain ⟨hworld, hdelivered, hfailed, hrevoked⟩ := askAll_announce host announcements w
  rw [hheard] at hworld hdelivered hfailed hrevoked
  unfold deliver
  rcases hasked : askAll (announce host) announcements w with ⟨reports, w''⟩
  rw [hasked] at hworld hdelivered hfailed hrevoked
  obtain rfl : w'' = w' := hworld
  have hpruned := w''.registry.entities.prune_spec (revocations announcements reports)
  have hkept : (w''.registry.entities.prune (revocations announcements reports)).2 = kept := by
    rw [hpruned.1]
    congr 1
    funext id kind subscriber
    rw [Bool.eq_iff_iff]
    simp only [Bool.not_eq_true', decide_eq_false_iff_not, hrevoked, Bool.not_eq_true]
  rw [hkept] at hpruned
  simp only []
  cases hrevocations : revocations announcements reports with
  | nil =>
    rw [hrevocations] at hkept hpruned
    refine ⟨Delivery.ofReports reports, ?_, ?_, ?_, ?_⟩
    · rw [← hkept]
      rfl
    · rw [Delivery.ofReports_eq, ← hdelivered]
    · rw [Delivery.ofReports_eq, ← hfailed]
    · rw [Delivery.ofReports_eq]
      exact hpruned.2
  | cons r rs =>
    simp only [Registry.check_of_intact hw']
    rw [hrevocations] at hkept hpruned
    refine ⟨{ Delivery.ofReports reports with
        revoked := (w''.registry.entities.prune (r :: rs)).1 }, ?_, ?_, ?_, hpruned.2⟩
    · rw [← hkept]
      rfl
    · rw [Delivery.ofReports_eq, ← hdelivered]
    · rw [Delivery.ofReports_eq, ← hfailed]

/-- An operation commits, and then what it announces is delivered. -/
theorem perform_eq_deliver_announcements (op : Operation κ ε) (w : World κ ε) :
    op.perform host w = ((op.commit host.toCommandHost w).2.deliver host
      (op.announcements host.toCommandHost w)).2 := by
  cases op with
  | create | schedule | listen | drift => rfl
  | tick now =>
    simp only [Operation.perform, Operation.commit, Operation.announcements, tickCommands]
    cases w.registry.check <;> rfl
  | stopCommands now id =>
    simp only [Operation.perform, Operation.commit, Operation.announcements, stopCommands]
    cases w.registry.check <;> rfl
  | remove now id =>
    simp only [Operation.perform, Operation.commit, Operation.announcements, remove]
    cases w.registry.get id with
    | error e => rfl
    | ok e =>
      simp only []
      split <;> rfl
  | transfer src dst material quantity =>
    simp only [Operation.perform, Operation.commit, Operation.announcements, transfer]
    cases houtcome : (w.registry.transfer w.tracker.coordinatesOf src dst material quantity).1 with
    | error e => rfl
    | ok announcements => rfl

/-- Deliveries isolate failures and revoke narrowly.  Every subscription of every announcement is
told of its event, in order, each once, whatever the others reply.  The report counts those that
handled it and those that failed.  Then each entity has lost those subscriptions to a kind of event
whose subscriber was revoked by somebody who was told of an event of that kind of this entity, and
has kept all others in order; nothing else has changed, and the report has the number of
subscriptions that are gone.  If listeners only reply, what there was before is what the operation
left.

Every operation delivers its announcements in one go, after it has committed.  Whom it tells is
settled when the event occurs. -/
theorem deliver_exact (host : Host κ ε) (w : World κ ε) :
    (∀ announcements replies w', hearAll host announcements w = (replies, w') →
      let tellings := announcements.flatMap Announcement.tellings
      let kept := w'.registry.entities.retain fun id kind subscriber =>
        !revokes (tellings.zip replies) id kind subscriber
      replies.length = tellings.length ∧
      (∀ log, host.RecordsEvents log →
        log w'.outside = log w.outside ++ tellings.map Telling.heard) ∧
      (host.OnlyReplies → ∃ outside, w' = { w with outside := outside }) ∧
      (w'.registry.poisoned = false → ∃ delivery,
        w.deliver host announcements = (.ok delivery, w'.withEntities kept) ∧
        delivery.delivered = replies.countP Reply.isOk ∧
        delivery.failed = replies.countP Reply.isFailure ∧
        delivery.revoked + kept.subscriptionCount = w'.registry.entities.subscriptionCount)) ∧
    ∀ op : Operation κ ε,
      op.perform host w = ((op.commit host.toCommandHost w).2.deliver host
        (op.announcements host.toCommandHost w)).2 ∧
      (w.registry.schedule.BuiltIn →
        op.announcements host.toCommandHost w = op.captured host.toCommandHost w) := by
  refine ⟨fun announcements replies w' hheard => ?_, fun op =>
    ⟨perform_eq_deliver_announcements host op w,
      fun hw => op.announcements_eq_captured host.toCommandHost w hw⟩⟩
  have hreplies : (hearAll host announcements w).1 = replies := by rw [hheard]
  have hworld : (hearAll host announcements w).2 = w' := by rw [hheard]
  refine ⟨?_, fun log hlog => ?_, fun hhost => ?_, deliver_eq host announcements hheard⟩
  · rw [← hreplies]
    exact length_askAll ..
  · rw [← hworld]
    exact log_tellings hlog ..
  · obtain ⟨outside, houtside⟩ := exists_askAll_eq
      (fun t : Telling => hhost.entities t.subscription.listener t.event)
      (announcements.flatMap Announcement.tellings) w
    exact ⟨outside, hworld.symm.trans houtside⟩

end World

namespace Freight

/-- Those who listen to the freighter. -/
def audience : EventTable where
  table :=
    { entries :=
        [(.transferredTo, [⟨"ann", ⟨0⟩⟩, ⟨"bob", ⟨1⟩⟩, ⟨"ann", ⟨2⟩⟩]), (.attacked, [⟨"bob", ⟨1⟩⟩])]
      nodup := by decide }

/-- The world of the freighter, with listeners, and the station. -/
def attended : World Unit (List (ListenerId × EntityEvent)) where
  tracker := Skirmish.tracker
  registry :=
    { entities :=
        ⟨{ entries := [(freighter.id, .ship { freighter with events := audience }),
            (depot.id, .station depot)]
           nodup := by decide }⟩ }
  outside := []

/-- Three units of ore are handed over. -/
def handover : Operation Unit (List (ListenerId × EntityEvent)) :=
  .transfer freighter.id depot.id "ore" 3

/-- The surroundings in which one listener is content, the next one fails, and all others want Bob
to be revoked.  All that they are told is logged. -/
def host : Host Unit (List (ListenerId × EntityEvent)) where
  hook _ progress body scene outside := ⟨.ok (), progress, body, scene, outside⟩
  mayExecute _ _ _ := false
  isOver _ _ _ := true
  credit _ outside := outside
  hearPosition _ _ w := (.ok (), w)
  hearEntity listener event w :=
    (match listener.number with
      | 0 => .ok ()
      | 1 => .error (.failed "busy")
      | _ => .error (.revoked "bob"),
      { w with outside := w.outside ++ [(listener, event)] })

theorem recordsEvents_host : host.RecordsEvents id := fun _ _ _ => rfl

theorem onlyReplies_host : host.OnlyReplies where
  positions _ _ w := ⟨w.outside, rfl⟩
  entities listener event w := ⟨w.outside ++ [(listener, event)], rfl⟩

end Freight

open Freight in
/-- All three listeners are told, though the second one fails.  Ann's second one makes Bob lose his
subscription to this kind of event and no other. -/
theorem World.deliver_exact_freight :
    let announcements := handover.announcements host.toCommandHost attended
    announcements = handover.captured host.toCommandHost attended ∧
    ∃ delivery w', attended.deliver host announcements = (.ok delivery, w') ∧
      delivery = { delivered := 1, failed := 1, revoked := 1 } ∧
      w'.outside.map (·.1) = [⟨0⟩, ⟨1⟩, ⟨2⟩] ∧
      ((w'.registry.entities.get? freighter.id).bind Entity.events?).any (fun t =>
        t.subscriptions .transferredTo = [⟨"ann", ⟨0⟩⟩, ⟨"ann", ⟨2⟩⟩] ∧
          t.subscriptions .attacked = [⟨"bob", ⟨1⟩⟩]) = true := by
  intro announcements
  obtain ⟨hdeliveries, hoperations⟩ := deliver_exact host attended
  obtain ⟨-, hlog, hkeeps, hdeliver⟩ := hdeliveries announcements
    (hearAll host announcements attended).1 (hearAll host announcements attended).2 rfl
  have houtside := hlog id recordsEvents_host
  obtain ⟨outside, hworld⟩ := hkeeps onlyReplies_host
  obtain ⟨⟨delivered, failed, revoked⟩, heq, hdelivered, hfailed, hrevoked⟩ :=
    hdeliver (by rw [hworld]; rfl)
  refine ⟨(hoperations handover).2 (by rintro c hc; cases hc), _, _, heq, ?_, ?_, ?_⟩
  · have hone : (hearAll host announcements attended).1.countP Reply.isOk = 1 := by decide +kernel
    have hone' : (hearAll host announcements attended).1.countP Reply.isFailure = 1 := by
      decide +kernel
    have hbefore : (hearAll host announcements attended).2.registry.entities.subscriptionCount =
        4 := by decide +kernel
    have hafter : ((hearAll host announcements attended).2.registry.entities.retain
        fun id kind subscriber => !revokes ((announcements.flatMap Announcement.tellings).zip
          (hearAll host announcements attended).1) id kind subscriber).subscriptionCount = 3 := by
      decide +kernel
    have hcount : revoked + 3 = 4 :=
      (congrArg (revoked + ·) hafter).symm.trans (hrevoked.trans hbefore)
    rw [Delivery.mk.injEq]
    exact ⟨hdelivered.trans hone, hfailed.trans hone', Nat.add_right_cancel hcount⟩
  · show (id (hearAll host announcements attended).2.outside).map (·.1) = _
    rw [houtside]
    decide +kernel
  · decide +kernel

end Orrery
