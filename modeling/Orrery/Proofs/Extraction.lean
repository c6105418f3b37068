import Mathlib.Algebra.Order.Floor.Div
import Orrery.Proofs.Hold
import Orrery.Proofs.Success

/-!
# What a mining run extracts

An undisturbed mining run moves the same amount in every tick, until the deposit has no more or the
hold of the ship is full; only the last load may be smaller.  One tick moves one load
(`Mining.succeeds`), which is what `Mining.haul` says, and afterwards there is an obstacle just if
everything that could be moved has been moved (`Mining.obstacle?_of_inReach`).  So a run of `q`
units at a time, of `limit` units in all, takes `limit ⌈/⌉ q` ticks (`World.extraction_exact`).
-/

namespace Orrery

variable {κ ε : Type}

/-! ### Holds -/

namespace Hold

variable {h h' h'' : Hold} {material : String} {moved more : Nat}

/-- What fits is what the capacity exceeds the sum by. -/
theorem toNat_free (h : Hold) : h.free.toNat = h.capacity.toNat - h.sum := by
  have hcapacity := h.capacity.toNat_lt
  rw [free, Units.toNat_minus, toNat_total]
  omega

/-- What a hold is said to have and to have room for is what the numbers in it come to. -/
structure Fits (h : Hold) : Prop where
  total : h.total.toNat = h.sum
  free : h.free.toNat + h.sum = h.capacity.toNat

theorem fits_of_sum_le (hsum : h.sum ≤ h.capacity.toNat) : h.Fits where
  total := by
    have hcapacity := h.capacity.toNat_lt
    rw [toNat_total]
    omega
  free := by
    rw [toNat_free]
    omega

/-- A hold to which some units of one material have been added. -/
structure Gains (h : Hold) (material : String) (moved : Nat) (h' : Hold) : Prop where
  capacity : h'.capacity = h.capacity
  sum : h'.sum = h.sum + moved
  units : ∀ m, h'.units m = h.units m + if material = m then moved else 0

theorem Gains.refl (h : Hold) (material : String) : h.Gains material 0 h where
  capacity := rfl
  sum := rfl
  units m := by rw [ite_self, Nat.add_zero]

theorem Gains.trans (hgains : h.Gains material moved h') (hmore : h'.Gains material more h'') :
    h.Gains material (moved + more) h'' where
  capacity := hmore.capacity.trans hgains.capacity
  sum := by rw [hmore.sum, hgains.sum, Nat.add_assoc]
  units m := by
    rw [hmore.units, hgains.units, Nat.add_assoc]
    split <;> rfl

theorem gains_of_add {quantity : UInt32} (hadd : h.add material quantity = .ok h') :
    h.Gains material quantity.toNat h' := by
  obtain ⟨hcapacity, hsum, hunits, -⟩ := add_spec hadd
  exact ⟨hcapacity, hsum, hunits⟩

/-- Every unit takes up room. -/
theorem Gains.toNat_free (hgains : h.Gains material moved h') :
    h'.free.toNat = h.free.toNat - moved := by
  rw [Hold.toNat_free, Hold.toNat_free, hgains.capacity, hgains.sum]
  omega

end Hold

/-! ### Ticks -/

namespace Mining

/-- What a ship and a deposit have to be like for the one to mine the other, apart from the amounts
of material. -/
structure InReach (tracker : Tracker) (x : Ship) (d : Deposit) : Prop where
  /-- The ship is alive. -/
  alive : x.alive = true
  system : x.system = d.system
  reach : ∃ distance, tracker.distanceBetween x.position d.position = some distance ∧
    Scalar.le distance x.miningDistance = true
  /-- It mines something at a time. -/
  quantity : 0 < x.miningQuantity

variable {m : Mining} {s : Scene} {x : Ship} {d : Deposit}

theorem InReach.of_eq {tracker : Tracker} (h : InReach tracker x d) {hold : Hold}
    {mining : Option EntityId} {events : EventTable} {quantity : UInt32} :
    InReach tracker { x with hold := hold, mining := mining, events := events }
      { d with quantity := quantity } := ⟨h.alive, h.system, h.reach, h.quantity⟩

/-- A ship that can reach the deposit mines it as long as there is something to move. -/
theorem obstacle?_of_inReach (hx : s.entities.ship m.miner = .ok x)
    (hd : s.entities.deposit m.deposit = .ok d) (h : InReach s.tracker x d) :
    m.obstacle? s = if d.quantity = 0 then some .depositDepleted
      else if x.hold.free = 0 then some .holdFull else none := by
  obtain ⟨distance, hdistance, hreach⟩ := h.reach
  have hpositive : ∀ {n : UInt32}, n ≠ 0 → 0 < n := fun hn => UInt32.pos_iff_ne_zero.mpr hn
  unfold obstacle?
  simp only [hx, hd, h.alive, h.system, hdistance, Bool.not_true, bne_self_eq_false, beq_iff_eq,
    Bool.false_eq_true, ↓reduceIte]
  by_cases hquantity : d.quantity = 0
  · rw [if_pos hquantity, if_pos hquantity]
  · by_cases hfree : x.hold.free = 0
    · rw [if_neg hquantity, if_pos hfree, if_neg hquantity, if_pos hfree]
    · have hcan : x.canMine d distance = true := by
        simp [Ship.canMine, h.alive, h.system, hreach, h.quantity, hpositive hquantity,
          hpositive hfree]
      rw [if_neg hquantity, if_neg hfree, if_neg hquantity, if_neg hfree, if_pos hcan]

/-- A load is as large as it may be. -/
theorem toNat_haul (x : Ship) (d : Deposit) : (haul x d).toNat =
    min x.miningQuantity.toNat (min d.quantity.toNat x.hold.free.toNat) := by
  rw [haul, Units.toNat_least, Units.toNat_least, Nat.min_assoc]

end Mining

/-! ### Entities -/

namespace Entities

variable {es : Entities} {id j : EntityId} {d : Deposit}

theorem deposit_adjustShip (h : es.deposit id = .ok d) (f : Ship → Ship) :
    (es.adjustShip j f).deposit id = .ok d := by
  rw [deposit_eq_ok, adjustShip, get?_adjust, deposit_eq_ok.mp h]
  split <;> rfl

theorem deposit_adjustDeposit (h : es.deposit id = .ok d) (f : Deposit → Deposit) :
    (es.adjustDeposit id f).deposit id = .ok (f d) := by
  rw [deposit_eq_ok, adjustDeposit, get?_adjust, if_pos rfl, deposit_eq_ok.mp h]
  rfl

end Entities

namespace Mining

variable {m : Mining} {x : Ship} {d : Deposit} {s : Setting κ ε} {progress : Progress}

/-- When the command is set up nothing has changed but the mark of the miner. -/
theorem exists_ready {isSetUp : Bool} (hx : s.entities.ship m.miner = .ok x)
    (hd : s.entities.deposit m.deposit = .ok d) : ∃ ready mining,
      (if isSetUp then ready = s.scene.entities
        else (m.hook .setup).run.run s.scene = (.ok (), { s.scene with entities := ready })) ∧
      ready.ship m.miner = .ok { x with mining := mining } ∧
      ready.deposit m.deposit = .ok d := by
  cases isSetUp with
  | true => exact ⟨s.entities, x.mining, rfl, hx, hd⟩
  | false =>
    have hengaged := Entities.ship_adjustShip s.entities m.miner
      ({ · with mining := some m.deposit }) hx
    rw [if_pos rfl] at hengaged
    refine ⟨m.engaged s.entities, some m.deposit, ?_, hengaged,
      Entities.deposit_adjustShip hd _⟩
    show m.setup.run.run s.scene = _
    unfold setup
    simp only [run_bind, run_read, Setting.scene, hx, hd]
    rfl

/-- All hooks of a tick succeed if there is something to move, and one load is moved. -/
theorem succeeds (hrate : progress.rate = none) (hx : s.entities.ship m.miner = .ok x)
    (hd : s.entities.deposit m.deposit = .ok d) (h : InReach s.tracker x d)
    (hhaul : haul x d ≠ 0) : ∃ ready left hold mining,
      (Command.mining m progress : Command κ).Succeeds m.hook s.scene ready left ∧
      x.hold.add d.material (haul x d) = .ok hold ∧
      left.entities.ship m.miner = .ok { x with hold := hold, mining := mining } ∧
      left.entities.deposit m.deposit = .ok { d with quantity := d.quantity - haul x d } ∧
      left.raised =
        [⟨.resourceCollected, m.miner, m.deposit, .resource d.material (haul x d)⟩] := by
  -- the mark that `setup` makes does not matter for anything else
  obtain ⟨ready, mining, hsetup, hx', hd'⟩ := m.exists_ready hx hd
  have hfree : x.hold.free ≠ 0 ∧ d.quantity ≠ 0 := by
    constructor
    · intro hzero
      refine hhaul (UInt32.toNat_inj.mp ?_)
      rw [toNat_haul, hzero, UInt32.toNat_zero, Nat.min_zero, Nat.min_zero]
    · intro hzero
      refine hhaul (UInt32.toNat_inj.mp ?_)
      rw [toNat_haul, hzero, UInt32.toNat_zero, Nat.zero_min, Nat.min_zero]
  obtain ⟨hold, hhold, hrun⟩ :=
    m.execute_run { s.scene with entities := ready } hx' hd' hhaul
  refine ⟨ready, _, hold, mining,
    { hooks := rfl
      unthrottled := hrate
      setup := hsetup
      before := rfl
      feasible := ?_
      execute := hrun
      tracker := rfl
      stopRequests := rfl }, hhold, ?_, ?_, rfl⟩
  · have hreach : InReach s.tracker { x with mining := mining } d := h.of_eq
    have hobstacle :=
      obstacle?_of_inReach (s := { s.scene with entities := ready }) hx' hd' hreach
    rw [if_neg hfree.2, if_neg hfree.1] at hobstacle
    exact congrArg Option.isNone hobstacle
  · have hmined := Entities.ship_adjustShip _ m.miner ({ · with hold := hold })
      (m.ship_debited ready (haul x d) hx')
    rw [if_pos rfl] at hmined
    exact hmined
  · exact Entities.deposit_adjustShip (Entities.deposit_adjustDeposit hd' _) _

/-- Why no more can be moved once a load has been, if that is so. -/
def ending? (x : Ship) (d : Deposit) : Option MiningObstacle :=
  if haul x d = d.quantity then some .depositDepleted
  else if haul x d = x.hold.free then some .holdFull else none

/-- What the listeners of the miner are told of a load, and of the end if it is the last one. -/
def news (m : Mining) (x : Ship) (d : Deposit) : List EntityEvent :=
  ⟨.resourceCollected, m.miner, m.deposit, .resource d.material (haul x d)⟩ ::
    ((ending? x d).map fun o => ⟨.miningStopped, m.miner, m.deposit, .reason o.text⟩).toList

/-- When a load has been moved, there is an obstacle just if no more can be moved. -/
theorem obstacle?_of_hauled {tracker : Tracker} (h : InReach tracker x d) {scene : Scene}
    (htracker : scene.tracker = tracker) {hold : Hold} {mining : Option EntityId}
    (hhold : x.hold.add d.material (haul x d) = .ok hold)
    (hx : scene.entities.ship m.miner = .ok { x with hold := hold, mining := mining })
    (hd : scene.entities.deposit m.deposit = .ok { d with quantity := d.quantity - haul x d }) :
    m.obstacle? scene = ending? x d := by
  subst htracker
  obtain ⟨hle, hle'⟩ := haul_le x d
  have hquantity : d.quantity - haul x d = 0 ↔ haul x d = d.quantity := by
    rw [← UInt32.toNat_inj, ← UInt32.toNat_inj,
      UInt32.toNat_sub_of_le _ _ (UInt32.le_iff_toNat_le.mpr hle), UInt32.toNat_zero]
    omega
  have hfree : hold.free = 0 ↔ haul x d = x.hold.free := by
    rw [← UInt32.toNat_inj, ← UInt32.toNat_inj, (Hold.gains_of_add hhold).toNat_free,
      UInt32.toNat_zero]
    omega
  have hreach : InReach scene.tracker { x with hold := hold, mining := mining }
      { d with quantity := d.quantity - haul x d } := h.of_eq
  rw [obstacle?_of_inReach hx hd hreach]
  simp only [hquantity, hfree]
  rfl

/-- One tick moves one load, and the run is over when no more can be moved. -/
theorem tick_spec (host : CommandHost κ ε) (hrate : progress.rate = none)
    (hx : s.entities.ship m.miner = .ok x) (hd : s.entities.deposit m.deposit = .ok d)
    (h : InReach s.tracker x d) (hhaul : haul x d ≠ 0) :
    ∃ es executions hold mining s', x.hold.add d.material (haul x d) = .ok hold ∧
      es.ship m.miner = .ok { x with hold := hold, mining := mining } ∧
      ((ending? x d).isSome = true → mining = none) ∧
      es.deposit m.deposit = .ok { d with quantity := d.quantity - haul x d } ∧
      s.Reaches es (m.news x d) executions s' ∧
      (Command.mining m progress : Command κ).tick host s =
        (⟨true, false, (ending? x d).isSome⟩,
          (Command.mining m progress).executedAt s.now, s') := by
  obtain ⟨ready, left, hold, mining, hsucceeds, hhold, hx', hd', hraised⟩ :=
    m.succeeds hrate hx hd h hhaul
  obtain ⟨s', hreaches, htick⟩ := hsucceeds.tick host
  have hentities : left.entities = s'.entities := hreaches.entities.symm
  have hobstacle : m.obstacle? s'.scene = ending? x d := by
    have hscene : s'.scene.entities = left.entities := hreaches.entities
    rw [← hscene] at hx' hd'
    exact obstacle?_of_hauled h hreaches.tracker hhold hx' hd'
  have hover : ((Command.mining m progress).executedAt s.now).isOver host s' =
      (ending? x d).isSome := congrArg Option.isSome hobstacle
  rw [hover] at htick
  rw [hraised] at hreaches
  cases hending : ending? x d with
  | none =>
    rw [hending, Option.isSome_none, if_neg Bool.noConfusion] at htick
    have hnews : m.news x d =
        [⟨.resourceCollected, m.miner, m.deposit, .resource d.material (haul x d)⟩] := by
      rw [news, hending]
      rfl
    exact ⟨_, _, hold, mining, s', hhold, hx', by simp, hd', hnews ▸ hreaches, htick⟩
  | some o =>
    have hteardown : (m.hook .teardown).run.run s'.scene = (.ok (),
        { s'.scene with entities := m.released s'.entities }.announce
          ⟨.miningStopped, m.miner, m.deposit, .reason o.text⟩) := by
      show m.teardown.run.run s'.scene = _
      unfold teardown
      rw [run_bind, run_get]
      simp only [hobstacle, hending, Option.map_some, Option.getD_some, finish_run]
      rfl
    obtain ⟨s'', hrun, hreaches'⟩ := Command.reaches_run host
      (c := (Command.mining m progress).executedAt s.now) rfl hteardown rfl rfl
    rw [hending, Option.isSome_some, if_pos rfl, hrun] at htick
    have hreleased := Entities.ship_adjustShip s'.entities m.miner ({ · with mining := none })
      (hentities ▸ hx')
    rw [if_pos rfl] at hreleased
    have hnews : m.news x d =
        [⟨.resourceCollected, m.miner, m.deposit, .resource d.material (haul x d)⟩] ++
          [⟨.miningStopped, m.miner, m.deposit, .reason o.text⟩] := by
      rw [news, hending]
      rfl
    exact ⟨m.released s'.entities, _, hold, none, s'', hhold, hreleased, fun _ => rfl,
      Entities.deposit_adjustShip (hentities ▸ hd') _, hnews ▸ hreaches.trans hreaches', htick⟩

/-! ### Amounts -/

/-- The arithmetic of a load does not leave the range of the counts: what is free in the hold, what
is left in the deposit and what there is of the material afterwards are sums and differences of
natural numbers. -/
structure NoOverflow (x : Ship) (d : Deposit) : Prop where
  hold : x.hold.Fits
  loss : (d.quantity - haul x d).toNat + (haul x d).toNat = d.quantity.toNat
  gain : (x.hold.quantityOf d.material + haul x d).toNat =
    (x.hold.quantityOf d.material).toNat + (haul x d).toNat

theorem noOverflow (x : Ship) (d : Deposit) (hfree : 0 < x.hold.free.toNat) : NoOverflow x d := by
  obtain ⟨hle, hle'⟩ := haul_le x d
  have hroom := x.hold.toNat_free
  have hcapacity := x.hold.capacity.toNat_lt
  have hsum : (x.hold.quantityOf d.material).toNat ≤ x.hold.sum :=
    x.hold.units_le_sum d.material
  refine ⟨Hold.fits_of_sum_le (by omega), ?_, ?_⟩
  · rw [UInt32.toNat_sub_of_le _ _ (UInt32.le_iff_toNat_le.mpr hle)]
    omega
  · rw [UInt32.toNat_add]
    exact Nat.mod_eq_of_lt (by omega)

/-- A ship and a deposit between which some units have been moved. -/
structure Moved (m : Mining) (es : Entities) (x : Ship) (d : Deposit) (moved : Nat) (x' : Ship)
    (d' : Deposit) : Prop where
  miner : es.ship m.miner = .ok x'
  deposit : es.deposit m.deposit = .ok d'
  loss : d'.quantity.toNat + moved = d.quantity.toNat
  gain : x.hold.Gains d.material moved x'.hold
  /-- Nothing else about the ship matters. -/
  ship : ∃ mining events, x' = { x with hold := x'.hold, mining := mining, events := events }
  rest : d' = { d with quantity := d'.quantity }

variable {es : Entities} {moved : Nat} {x' : Ship} {d' : Deposit}

theorem Moved.inReach (h : m.Moved es x d moved x' d') {tracker : Tracker}
    (hreach : InReach tracker x d) : InReach tracker x' d' := by
  obtain ⟨mining, events, hship⟩ := h.ship
  rw [hship, h.rest]
  exact hreach.of_eq

/-- What the next load is, if so many units can be moved in all. -/
theorem Moved.toNat_haul (h : m.Moved es x d moved x' d') : (haul x' d').toNat =
    min x.miningQuantity.toNat (min d.quantity.toNat x.hold.free.toNat - moved) := by
  obtain ⟨mining, events, hship⟩ := h.ship
  have hquantity : x'.miningQuantity = x.miningQuantity := by rw [hship]
  have hloss := h.loss
  have hfree := h.gain.toNat_free
  rw [Mining.toNat_haul, hquantity]
  omega

/-- The run ends when everything has been moved that can be, and the reason is what there was less
of. -/
theorem Moved.ending?_eq (h : m.Moved es x d moved x' d')
    (hmoved : moved < min d.quantity.toNat x.hold.free.toNat) : ending? x' d' =
    if moved + (haul x' d').toNat = min d.quantity.toNat x.hold.free.toNat then
      some (if d.quantity.toNat ≤ x.hold.free.toNat then .depositDepleted else .holdFull)
    else none := by
  obtain ⟨hle, hle'⟩ := haul_le x' d'
  have hloss := h.loss
  have hfree := h.gain.toNat_free
  unfold ending?
  simp only [← UInt32.toNat_inj]
  split_ifs <;> first | rfl | omega

end Mining

/-! ### Runs -/

namespace World

variable {w : World κ ε} {m : Mining} {progress : Progress} {x x' : Ship} {d d' : Deposit}
  {moved : Nat}

/-- The only command is the mining of a deposit, of which so many units have been moved. -/
structure Digs (w : World κ ε) (m : Mining) (progress : Progress) (x : Ship) (d : Deposit)
    (moved : Nat) (x' : Ship) (d' : Deposit) : Prop where
  intact : w.registry.poisoned = false
  commands : w.registry.schedule.commands = [.mining m progress]
  unthrottled : progress.rate = none
  inReach : Mining.InReach w.tracker x d
  moved : m.Moved w.registry.entities x d moved x' d'

/-- The events that a tick raises. -/
def raisedAt (host : CommandHost κ ε) (w : World κ ε) (now : Float) : List EntityEvent :=
  ((w.session now).tick host).2.setting.chronicle.flatMap Deed.raised

/-- One tick moves one load; the run stays on the schedule unless that was the last one. -/
theorem Digs.tick {host : Host κ ε} (hhost : host.OnlyReplies)
    (h : w.Digs m progress x d moved x' d')
    (hmoved : moved < min d.quantity.toNat x.hold.free.toNat) (now : Float) :
    ∃ delivery w' x'' d'',
      w.tickCommands host now = (.ok ⟨
        { ran := 1
          executed := 1
          finished := if (Mining.ending? x' d').isSome then [m.commandId] else [] }, delivery⟩,
        w') ∧
      w.raisedAt host.toCommandHost now = m.news x' d' ∧
      w'.registry.poisoned = false ∧ w'.tracker = w.tracker ∧
      w'.registry.schedule.commands = (if (Mining.ending? x' d').isSome then []
        else [(Command.mining m progress).executedAt now]) ∧
      m.Moved w'.registry.entities x d (moved + (Mining.haul x' d').toNat) x'' d'' ∧
      ((Mining.ending? x' d').isSome = true → x''.mining = none) := by
  have hhaul : Mining.haul x' d' ≠ 0 := by
    have hquantity : 0 < x.miningQuantity.toNat := UInt32.lt_iff_toNat_lt.mp h.inReach.quantity
    have hload := h.moved.toNat_haul
    rintro hzero
    rw [hzero, UInt32.toNat_zero] at hload
    omega
  obtain ⟨es, executions, hold, mining, s', hhold, hship, hmining, hdeposit, hreaches, htick⟩ :=
    Mining.tick_spec host.toCommandHost (s := (w.session now).setting) h.unthrottled h.moved.miner
      h.moved.deposit (h.moved.inReach h.inReach) hhaul
  obtain ⟨hreport, hcommands, hsetting⟩ := Session.tick_of_single host.toCommandHost
    (x := w.session now) h.commands htick rfl hreaches.stopRequests
  obtain ⟨delivery, w', htold, hfollows⟩ := exists_follows hhost now h.intact
  rw [hreport] at htold
  have hentities : ((w.session now).tick host.toCommandHost).2.setting.entities = es := by
    rw [hsetting, hreaches.entities]
  rw [← hentities] at hship hdeposit
  obtain ⟨events, hship⟩ := hfollows.ship (Entities.shows_of_ship hship)
  obtain ⟨mining', events', hx'⟩ := h.moved.ship
  have hmaterial : d'.material = d.material := by rw [h.moved.rest]
  have hrest : ∀ quantity, ({ d' with quantity := quantity } : Deposit) =
      { d with quantity := quantity } := fun quantity => by rw [h.moved.rest]
  have hgain := Hold.gains_of_add hhold
  rw [hmaterial] at hgain
  refine ⟨delivery, w', { x' with hold := hold, mining := mining, events := events },
    { d' with quantity := d'.quantity - Mining.haul x' d' }, htold, ?_, hfollows.intact, ?_, ?_,
    { miner := hship
      deposit := hfollows.deposit hdeposit
      loss := ?_
      gain := h.moved.gain.trans hgain
      ship := ⟨mining, events, by rw [hx']⟩
      rest := hrest _ }, hmining⟩
  · rw [raisedAt, hsetting, hreaches.raised]
    rfl
  · rw [hfollows.tracker, hsetting, hreaches.tracker]
    rfl
  · rw [hfollows.schedule, hcommands]
    rfl
  · have hloss := h.moved.loss
    have hle := (Mining.haul_le x' d').1
    rw [UInt32.toNat_sub_of_le _ _ (UInt32.le_iff_toNat_le.mpr hle)]
    omega

/-- As long as not everything has been moved, a tick moves as much as the ship mines at a time. -/
theorem Digs.next {host : Host κ ε} (hhost : host.OnlyReplies)
    (h : w.Digs m progress x d moved x' d')
    (hmoved : moved + x.miningQuantity.toNat < min d.quantity.toNat x.hold.free.toNat)
    (now : Float) : ∃ progress' x'' d'', (w.tickCommands host now).2.Digs m progress' x d
      (moved + x.miningQuantity.toNat) x'' d'' := by
  have hstart : moved < min d.quantity.toNat x.hold.free.toNat := by omega
  obtain ⟨delivery, w', x'', d'', htick, -, hintact, htracker, hcommands, hnext, -⟩ :=
    h.tick hhost hstart now
  -- this is not the last load, so it is a full one
  have hload : (Mining.haul x' d').toNat = x.miningQuantity.toNat := by
    rw [h.moved.toNat_haul]
    omega
  have hending : Mining.ending? x' d' = none := by
    rw [h.moved.ending?_eq hstart, hload, if_neg (by omega)]
  rw [hload] at hnext
  rw [hending] at hcommands
  rw [htick]
  exact ⟨_, x'', d'', hintact, hcommands, h.unthrottled, htracker ▸ h.inReach, hnext⟩

/-- So does every tick of a run. -/
theorem Digs.performAll {host : Host κ ε} (hhost : host.OnlyReplies)
    (h : w.Digs m progress x d moved x' d') (times : List Float)
    (hmoved : moved + times.length * x.miningQuantity.toNat <
      min d.quantity.toNat x.hold.free.toNat) :
    ∃ progress' x'' d'', (w.performAll host (times.map .tick)).Digs m progress' x d
      (moved + times.length * x.miningQuantity.toNat) x'' d'' :=
  grows_performAll (P := fun moved w => ∃ progress x' d', w.Digs m progress x d moved x' d')
    (fun hmoved ⟨_, _, _, hdigs⟩ now => hdigs.next hhost hmoved now) ⟨progress, x', d', h⟩ times
    hmoved

/-- What is given before the first tick of a mining run. -/
structure MayDig (w : World κ ε) (m : Mining) (x : Ship) (d : Deposit) : Prop where
  intact : w.registry.poisoned = false
  /-- The run has not begun, and it is the only command. -/
  commands : w.registry.schedule.commands = [.mining m]
  miner : w.registry.entities.ship m.miner = .ok x
  deposit : w.registry.entities.deposit m.deposit = .ok d
  inReach : Mining.InReach w.tracker x d
  /-- Something fits into the hold. -/
  room : 0 < x.hold.free
  /-- There is something in the deposit. -/
  supply : 0 < d.quantity

theorem MayDig.digs (h : w.MayDig m x d) : w.Digs m {} x d 0 x d where
  intact := h.intact
  commands := h.commands
  unthrottled := rfl
  inReach := h.inReach
  moved :=
    { miner := h.miner
      deposit := h.deposit
      loss := rfl
      gain := .refl x.hold d.material
      ship := ⟨x.mining, x.events, rfl⟩
      rest := rfl }

/-- A mining run of `q` units at a time, of which `limit` units can be moved in all, takes
`limit ⌈/⌉ q` ticks, whenever these are.  Before it ends it stays on the schedule and each tick
moves exactly `q` units; the last tick moves what remains, gives the reason, and takes the run off
the schedule.  The arithmetic never leaves the range of the counts. -/
theorem extraction_exact {host : Host κ ε} (hhost : host.OnlyReplies) (h : w.MayDig m x d) :
    let q := x.miningQuantity.toNat
    let limit := min d.quantity.toNat x.hold.free.toNat
    let n := limit ⌈/⌉ q
    0 < n ∧ ∀ (times : List Float) (now : Float), times.length < n →
      let v := w.performAll host (times.map .tick)
      v.registry.schedule.ids = [m.commandId] ∧
      ∃ x' d' delivery v', m.Moved v.registry.entities x d (times.length * q) x' d' ∧
        Mining.NoOverflow x' d' ∧
        (times.length + 1 < n →
          v.tickCommands host now = (.ok ⟨{ ran := 1, executed := 1 }, delivery⟩, v') ∧
          (Mining.haul x' d').toNat = q ∧
          v.raisedAt host.toCommandHost now =
            [⟨.resourceCollected, m.miner, m.deposit, .resource d.material (Mining.haul x' d')⟩]) ∧
        (times.length + 1 = n →
          v.tickCommands host now =
            (.ok ⟨{ ran := 1, executed := 1, finished := [m.commandId] }, delivery⟩, v') ∧
          (Mining.haul x' d').toNat = limit - times.length * q ∧
          v.raisedAt host.toCommandHost now =
            [⟨.resourceCollected, m.miner, m.deposit, .resource d.material (Mining.haul x' d')⟩,
              ⟨.miningStopped, m.miner, m.deposit, .reason
                (if d.quantity.toNat ≤ x.hold.free.toNat then "deposit depleted"
                  else "cargo full")⟩] ∧
          v'.registry.schedule.commands = [] ∧
          ∃ x'' d'', m.Moved v'.registry.entities x d limit x'' d'' ∧ x''.hold.Fits ∧
            x''.mining = none) := by
  intro q limit n
  have hq : 0 < q := UInt32.lt_iff_toNat_lt.mp h.inReach.quantity
  have hlimit : 0 < limit :=
    lt_min (UInt32.lt_iff_toNat_lt.mp h.supply) (UInt32.lt_iff_toNat_lt.mp h.room)
  have hroom : limit ≤ x.hold.free.toNat := min_le_right ..
  -- a tick is not the last one if its load leaves something to be moved
  have hlt : ∀ k, k < n ↔ k * q < limit := fun k => by
    rw [← not_le, ← not_le, ceilDiv_le_iff_le_mul hq, Nat.mul_comm]
  refine ⟨(hlt 0).mpr (by omega), fun times now htimes => ?_⟩
  have hmoved := (hlt _).mp htimes
  obtain ⟨progress, x', d', hdigs⟩ := h.digs.performAll hhost times (by rwa [Nat.zero_add])
  rw [Nat.zero_add] at hdigs
  obtain ⟨delivery, v', x'', d'', htick, hraised, -, -, hcommands, hnext, hmining⟩ :=
    hdigs.tick hhost hmoved now
  have hload : (Mining.haul x' d').toNat = min q (limit - times.length * q) :=
    hdigs.moved.toNat_haul
  have hending := hdigs.moved.ending?_eq hmoved
  have hmaterial : d'.material = d.material := by rw [hdigs.moved.rest]
  rw [Mining.news, hmaterial] at hraised
  refine ⟨congrArg (List.map Command.id) hdigs.commands, x', d', delivery, v', hdigs.moved,
    Mining.noOverflow x' d' ?_, fun hlast => ?_, fun hlast => ?_⟩
  · have hfree : x'.hold.free.toNat = x.hold.free.toNat - times.length * q :=
      hdigs.moved.gain.toNat_free
    omega
  · have hrest := (hlt _).mp hlast
    rw [Nat.succ_mul] at hrest
    have hfull : (Mining.haul x' d').toNat = q := by omega
    rw [hfull, if_neg hrest.ne] at hending
    rw [hending] at htick hraised
    exact ⟨htick, hfull, hraised⟩
  · have hrest := (hlt (times.length + 1)).not.mp (by omega)
    rw [Nat.succ_mul] at hrest
    have hremaining : (Mining.haul x' d').toNat = limit - times.length * q := by omega
    have hall : times.length * q + (Mining.haul x' d').toNat = limit := by omega
    rw [if_pos hall] at hending
    rw [hending] at htick hraised hcommands hmining
    rw [hall] at hnext
    refine ⟨htick, hremaining, ?_, hcommands, x'', d'', hnext, ?_, hmining rfl⟩
    · rw [hraised]
      split <;> rfl
    · have hfree := x.hold.toNat_free
      refine Hold.fits_of_sum_le ?_
      rw [hnext.gain.capacity, hnext.gain.sum]
      omega

end World

namespace Skirmish

/-- The digger can mine five units at a time of the eight that there are. -/
def quarry : World Unit Unit where
  tracker := tracker
  registry :=
    { entities :=
        { table :=
            { entries := [(digger.id, .ship digger), (lode.id, .deposit lode)]
              nodup := by decide } }
      schedule :=
        { commands := [.mining dig]
          distinct := List.nodup_singleton _ } }
  outside := ()

theorem mayDig_quarry : quarry.MayDig dig digger lode where
  intact := rfl
  commands := rfl
  miner := rfl
  deposit := rfl
  inReach := ⟨by decide, rfl, ⟨_, rfl, by decide +kernel⟩, by decide⟩
  room := by decide
  supply := by decide

end Skirmish

/-- After five units in the first tick three remain for the second one, which is the last. -/
theorem World.extraction_exact_quarry :
    ∃ delivery delivery' v v' x d,
      Skirmish.quarry.tickCommands Host.still 0 =
        (.ok ⟨{ ran := 1, executed := 1 }, delivery⟩, v) ∧
      v.tickCommands Host.still 1 =
        (.ok ⟨{ ran := 1, executed := 1, finished := [Skirmish.dig.commandId] }, delivery'⟩, v') ∧
      Skirmish.dig.Moved v'.registry.entities Skirmish.digger Skirmish.lode 8 x d ∧
      x.mining = none := by
  obtain ⟨-, hextraction⟩ := extraction_exact Host.onlyReplies_still Skirmish.mayDig_quarry
  obtain ⟨-, _, _, delivery, v, -, -, hfirst, -⟩ := hextraction [] 0 (by decide +kernel)
  obtain ⟨hfirst, -⟩ := hfirst (by decide +kernel)
  obtain ⟨-, _, _, delivery', v', -, -, -, hlast⟩ := hextraction [0] 1 (by decide +kernel)
  obtain ⟨hlast, -, -, -, x, d, hmoved, -, hmining⟩ := hlast (by decide +kernel)
  have hv : Skirmish.quarry.performAll Host.still ([0].map .tick) = v :=
    congrArg Prod.snd hfirst
  rw [hv] at hlast
  exact ⟨delivery, delivery', v, v', x, d, hfirst, hlast, hmoved, hmining⟩

end Orrery
