/-
# Steps on one lane

Issuing a ticket, completing one, advancing and draining are steps on the lane of one host. All
that such a step reads is this lane and which connections are closed, and all that it does is said
by a `LaneEffect`: what becomes of the lane, which connection's note on the host changes, and what
the metrics record. A drain that has to wait and times out is such a step as well, because while
it waits nothing else happens.

Effects on different hosts touch different lanes and different notes, so they can be exchanged as
far as the gate is concerned. They meet in the metrics alone, in the gauge of outstanding tickets:
it stops at zero, so taking from it can be exchanged with adding to it only if it holds as much
as is taken.
-/

import ControlPlane.Proofs.Sync.Conservation
import Mathlib.Data.List.Perm.Basic
import Mathlib.Logic.Function.Iterate

namespace ControlPlane

open Std (ExtTreeMap)

/-- A step on the lane of a host. -/
inductive LaneStep
  | beginWait (connection : ConnectionId)
  /-- The connection is the one that the ticket names, whether it holds the ticket or not. -/
  | complete (sequence : UInt64) (connection : ConnectionId)
  | advance
  | drain
deriving DecidableEq

def LaneStep.on (host : HostId) : LaneStep → GateStep
  | beginWait connection => .beginWait host connection
  | complete sequence connection => .complete ⟨host, sequence, connection⟩
  | advance => .advance host
  | drain => .drain host

/-- Steps by the lane they are on, if they are on one. -/
@[elab_as_elim]
theorem GateStep.byLane {motive : GateStep → Prop} (opened : motive .openConnection)
    (closed : ∀ connection, motive (.closeConnection connection))
    (on : ∀ host (step : LaneStep), motive (step.on host)) (step : GateStep) : motive step := by
  cases step with
  | openConnection => exact opened
  | closeConnection connection => exact closed connection
  | beginWait host connection => exact on host (.beginWait connection)
  | complete ticket => exact on ticket.host (.complete ticket.sequence ticket.connection)
  | advance host => exact on host .advance
  | drain host => exact on host .drain

/-- How a step moves the gauge of outstanding tickets. -/
inductive GaugeMove
  | raise
  | lower (taken : Nat)

/-- What a step on a lane does. -/
structure LaneEffect where
  reply : GateReply
  /-- The lane that is left, if the host has one. -/
  lane : Option Lane
  /-- The connection whose note on the host changes, and how. -/
  note : Option (ConnectionId × (Option Nat → Option Nat)) := none
  counts : List String := []
  move : GaugeMove := .lower 0

/-! ## Changes of a map at its keys -/

section

variable {κ β : Type} [Ord κ] [Std.TransOrd κ] [Std.LawfulEqOrd κ] (items : ExtTreeMap κ β)

/-- Changes at different keys can be exchanged. -/
theorem alter_alter_comm {key key' : κ} (hne : key ≠ key') (change change' : Option β → Option β) :
    (items.alter key change).alter key' change' =
      (items.alter key' change').alter key change := by
  apply ExtTreeMap.ext_getElem?
  intro other
  simp only [ExtTreeMap.getElem?_alter, Std.LawfulEqOrd.compare_eq_iff_eq]
  by_cases heq : key = other
  · subst heq
    simp [hne.symm]
  · by_cases heq' : key' = other
    · subst heq'
      simp [heq]
    · simp [heq, heq']

/-- Changes that can be exchanged at every value can be exchanged, at whatever keys. -/
theorem modify_modify_comm (key key' : κ) {change change' : β → β}
    (hcomm : ∀ value, change (change' value) = change' (change value)) :
    (items.modify key change).modify key' change' =
      (items.modify key' change').modify key change := by
  apply ExtTreeMap.ext_getElem?
  intro other
  simp only [ExtTreeMap.getElem?_modify, Std.LawfulEqOrd.compare_eq_iff_eq]
  by_cases heq : key = other
  · by_cases heq' : key' = other
    · simp [heq, heq', Function.comp_def, hcomm]
    · simp [heq, heq']
  · by_cases heq' : key' = other
    · subst heq'
      simp [heq]
    · simp [heq, heq']

theorem insert_eq_alter (key : κ) (value : β) :
    items.insert key value = items.alter key fun _ => some value := by
  apply ExtTreeMap.ext_getElem?
  intro other
  simp only [ExtTreeMap.getElem?_alter, ExtTreeMap.getElem?_insert]

theorem modify_eq_alter (key : κ) (change : β → β) :
    items.modify key change = items.alter key fun _ => items[key]?.map change := by
  apply ExtTreeMap.ext_getElem?
  intro other
  simp only [ExtTreeMap.getElem?_alter, ExtTreeMap.getElem?_modify]

theorem alter_getElem? (key : κ) : (items.alter key fun _ => items[key]?) = items := by
  apply ExtTreeMap.ext_getElem?
  intro other
  rw [ExtTreeMap.getElem?_alter]
  split
  · next heq => rw [Std.LawfulEqOrd.compare_eq_iff_eq.mp heq]
  · rfl

omit [Std.LawfulEqOrd κ] in
/-- A map from which a key was erased has one entry less, if the key was there. -/
theorem size_erase_add (key : κ) :
    (items.erase key).size + (if items[key]?.isSome then 1 else 0) = items.size := by
  rw [ExtTreeMap.size_erase, ExtTreeMap.contains_eq_isSome_getElem?]
  by_cases hmem : items[key]?.isSome = true
  · have hne : items.size ≠ 0 := by
      intro hzero
      rw [ExtTreeMap.eq_empty_iff_size_eq_zero.mpr hzero] at hmem
      simp at hmem
    rw [if_pos hmem, if_pos hmem]
    exact Nat.sub_add_cancel (Nat.pos_of_ne_zero hne)
  · rw [if_neg hmem, if_neg hmem, Nat.add_zero]

end

/-! ## Metrics -/

namespace Metrics

/-- Count each name once. -/
def countAll (m : Metrics) (names : List String) : Metrics :=
  names.foldl (fun m name => m.count name 1) m

def moveGauge (m : Metrics) : GaugeMove → Metrics
  | .raise => m.raise syncOutstandingTickets
  | .lower taken => (fun m => m.lower syncOutstandingTickets)^[taken] m

def record (m : Metrics) (effect : LaneEffect) : Metrics :=
  (m.countAll effect.counts).moveGauge effect.move

variable (m : Metrics)

theorem count_right_comm (name other : String) :
    (m.count name 1).count other 1 = (m.count other 1).count name 1 := by
  have hcounters : ((m.count name 1).count other 1).counters =
      ((m.count other 1).count name 1).counters := by
    apply ExtTreeMap.ext_getElem?
    intro key
    by_cases heq : name = other
    · rw [heq]
    · change ((m.counters.insert name _).insert other ((m.count name 1).counter other + 1))[key]? =
        ((m.counters.insert other _).insert name ((m.count other 1).counter name + 1))[key]?
      simp only [counter_count, ExtTreeMap.getElem?_insert, Std.LawfulEqOrd.compare_eq_iff_eq,
        if_neg heq, if_neg (Ne.symm heq)]
      by_cases hname : name = key
      · have hother : other ≠ key := fun h => heq (hname.trans h.symm)
        simp [hname, hother]
      · simp [hname]
  exact congrArg (fun counters => { m with counters }) hcounters

instance : RightCommutative fun (m : Metrics) (name : String) => m.count name 1 :=
  ⟨count_right_comm⟩

theorem countAll_countAll_comm (names others : List String) :
    (m.countAll names).countAll others = (m.countAll others).countAll names := by
  simp only [countAll, ← List.foldl_append]
  exact List.perm_append_comm.foldl_eq m

@[simp]
theorem gauge_countAll (names : List String) (name : String) :
    (m.countAll names).gauge name = m.gauge name := by
  induction names generalizing m with
  | nil => rfl
  | cons first names ih => exact ih (m.count first 1)

/-- Counting and moving a gauge do not meet. -/
theorem countAll_moveGauge (names : List String) (move : GaugeMove) :
    (m.moveGauge move).countAll names = (m.countAll names).moveGauge move := by
  have hcount (m : Metrics) (name : String) :
      (m.moveGauge move).count name 1 = (m.count name 1).moveGauge move := by
    cases move with
    | raise => rfl
    | lower taken =>
        have hlower : Function.Commute (fun m : Metrics => m.count name 1)
            (fun m => m.lower syncOutstandingTickets) := fun m => rfl
        exact hlower.iterate_right taken m
  induction names generalizing m with
  | nil => rfl
  | cons name names ih =>
      change ((m.moveGauge move).count name 1).countAll names = _
      rw [hcount]
      exact ih (m.count name 1)

/-- What is added to a gauge above zero can be added before or after one is taken. -/
theorem raise_lower_comm {name : String} (hpositive : m.gauge name ≠ 0)
    (hroom : m.gauge name + 1 ≠ 0) :
    (m.raise name).lower name = (m.lower name).raise name := by
  have hgauges : ((m.raise name).lower name).gauges = ((m.lower name).raise name).gauges := by
    apply ExtTreeMap.ext_getElem?
    intro key
    change ((m.gauges.insert name (m.gauge name + 1)).modify name _)[key]? =
      ((m.gauges.modify name _).insert name ((m.lower name).gauge name + 1))[key]?
    rw [gauge_lower_self, if_neg hpositive, UInt64.sub_add_cancel]
    by_cases heq : name = key
    · subst heq
      simp [hroom]
    · simp [ExtTreeMap.getElem?_modify, ExtTreeMap.getElem?_insert, heq]
  exact congrArg (fun gauges => { m with gauges }) hgauges

/-- A gauge that holds what is taken, and has room for one more, can be raised before or after. -/
theorem moveGauge_raise_lower_comm {taken : Nat}
    (hheld : taken ≤ (m.gauge syncOutstandingTickets).toNat)
    (hroom : (m.gauge syncOutstandingTickets).toNat + 1 < UInt64.size) :
    (m.moveGauge .raise).moveGauge (.lower taken) =
      (m.moveGauge (.lower taken)).moveGauge .raise := by
  induction taken generalizing m with
  | zero => rfl
  | succ taken ih =>
      have hpositive : m.gauge syncOutstandingTickets ≠ 0 := by
        intro h
        rw [h] at hheld
        exact absurd hheld (Nat.not_succ_le_zero taken)
      have hnext : m.gauge syncOutstandingTickets + 1 ≠ 0 := by
        intro h
        have hvalue := congrArg UInt64.toNat h
        rw [UInt64.toNat_add, UInt64.toNat_one, Nat.mod_eq_of_lt hroom] at hvalue
        exact absurd hvalue (Nat.succ_ne_zero _)
      have hlower := m.toNat_gauge_lower syncOutstandingTickets
      change ((m.raise syncOutstandingTickets).lower syncOutstandingTickets).moveGauge
        (.lower taken) = _
      rw [m.raise_lower_comm hpositive hnext]
      exact ih (m.lower syncOutstandingTickets) (by omega) (by omega)

/-- Moves by which no more is taken than the gauge holds can be exchanged. -/
theorem moveGauge_comm {move move' : GaugeMove}
    (hheld : ∀ taken, move = .lower taken → taken ≤ (m.gauge syncOutstandingTickets).toNat)
    (hheld' : ∀ taken, move' = .lower taken → taken ≤ (m.gauge syncOutstandingTickets).toNat)
    (hroom : (m.gauge syncOutstandingTickets).toNat + 1 < UInt64.size) :
    (m.moveGauge move).moveGauge move' = (m.moveGauge move').moveGauge move := by
  cases move with
  | raise =>
      cases move' with
      | raise => rfl
      | lower taken => exact m.moveGauge_raise_lower_comm (hheld' taken rfl) hroom
  | lower taken =>
      cases move' with
      | raise => exact (m.moveGauge_raise_lower_comm (hheld taken rfl) hroom).symm
      | lower taken' => exact (Function.Commute.refl _).iterate_iterate taken' taken m

theorem record_comm {effect effect' : LaneEffect}
    (hheld : ∀ taken, effect.move = .lower taken →
      taken ≤ (m.gauge syncOutstandingTickets).toNat)
    (hheld' : ∀ taken, effect'.move = .lower taken →
      taken ≤ (m.gauge syncOutstandingTickets).toNat)
    (hroom : (m.gauge syncOutstandingTickets).toNat + 1 < UInt64.size) :
    (m.record effect).record effect' = (m.record effect').record effect := by
  simp only [record, countAll_moveGauge]
  rw [countAll_countAll_comm]
  apply moveGauge_comm
  · simpa using hheld
  · simpa using hheld'
  · simpa using hroom

end Metrics

/-! ## Effects on a gate -/

/-- Change what a connection notes of a host. -/
def Connection.renote (connection : Connection) (host : HostId)
    (change : Option Nat → Option Nat) : Connection :=
  { connection with waiting := connection.waiting.alter host change }

theorem Connection.renote_comm (connection : Connection) {host host' : HostId} (hne : host ≠ host')
    (change change' : Option Nat → Option Nat) :
    (connection.renote host change).renote host' change' =
      (connection.renote host' change').renote host change := by
  have hwaiting := alter_alter_comm connection.waiting hne change change'
  exact congrArg (fun waiting => { connection with waiting }) hwaiting

namespace LaneEffect

variable (effect effect' : LaneEffect) (host : HostId) (g : Gate)

def connections (known : ExtTreeMap ConnectionId Connection) :
    ExtTreeMap ConnectionId Connection :=
  match effect.note with
  | none => known
  | some (connection, change) => known.modify connection (·.renote host change)

/-- The gate after an effect on the lane of a host. -/
def onGate : Gate :=
  { g with
    lanes := g.lanes.alter host fun _ => effect.lane
    connections := effect.connections host g.connections }

theorem getElem?_lanes_onGate (other : HostId) :
    (effect.onGate host g).lanes[other]? =
      if host = other then effect.lane else g.lanes[other]? := by
  change (g.lanes.alter host fun _ => effect.lane)[other]? = _
  simp only [ExtTreeMap.getElem?_alter, Std.LawfulEqOrd.compare_eq_iff_eq]

@[simp]
theorem isClosed_onGate (connection : ConnectionId) :
    (effect.onGate host g).isClosed connection = g.isClosed connection := by
  change (effect.connections host g.connections)[connection]?.any (·.isClosed) = _
  unfold connections
  split
  · rfl
  · apply Gate.any_isClosed_modify
    intro c
    rfl

variable {host} {host' : HostId} (hne : host ≠ host')
include hne

theorem connections_comm (known : ExtTreeMap ConnectionId Connection) :
    effect'.connections host' (effect.connections host known) =
      effect.connections host (effect'.connections host' known) := by
  unfold connections
  cases effect.note with
  | none => rfl
  | some note =>
      cases effect'.note with
      | none => rfl
      | some note' =>
          apply modify_modify_comm
          intro connection
          exact connection.renote_comm hne.symm note'.2 note.2

/-- Effects on different hosts can be exchanged. -/
theorem onGate_comm :
    effect'.onGate host' (effect.onGate host g) = effect.onGate host (effect'.onGate host' g) := by
  have hlanes := alter_alter_comm g.lanes hne (fun _ => effect.lane) fun _ => effect'.lane
  have hconnections := effect.connections_comm effect' hne g.connections
  exact congrArg₂ (fun lanes connections => { g with lanes, connections }) hlanes hconnections

end LaneEffect

/-! ## The effects of the steps -/

namespace Gate

/-- The lane of a host without the tickets of closed connections. -/
def keptLane (g : Gate) (host : HostId) : Lane :=
  { g.lane host with
    outstanding := (g.lane host).outstanding.filter fun _ owner => !g.isClosed owner }

/-- How many tickets up to a number a drain of the host would still wait for. -/
def pendingOn (g : Gate) (host : HostId) (snapshot : UInt64) : Nat :=
  (g.keptLane host).pendingThrough snapshot

theorem outstanding_pos_of_owner? (g : Gate) {host : HostId} {sequence : UInt64}
    {owner : ConnectionId} (h : g.owner? host sequence = some owner) : 0 < g.outstanding host := by
  have howner : (g.lane host).outstanding[sequence]? = some owner := h
  have hsize := size_erase_add (g.lane host).outstanding sequence
  rw [howner, Option.isSome_some, if_pos rfl] at hsize
  rw [outstanding]
  omega

end Gate

/-- One ticket less; no count is zero. -/
def oneLess : Option Nat → Option Nat
  | some (n + 2) => some (n + 1)
  | _ => none

/-- How a drain ends that leaves so many tickets. -/
def DrainOutcome.ofPending (pending : Nat) : DrainOutcome :=
  if pending = 0 then .drained else .timedOut pending

/-- What a drain of a known host counts. -/
def drainCounts (pending : Nat) : List String :=
  Metrics.syncDrainWaits :: if pending = 0 then [] else [Metrics.syncDrainTimeouts]

namespace LaneStep

def effect (g : Gate) (host : HostId) : LaneStep → LaneEffect
  | beginWait connection =>
      let sequence := g.lastIssued host + 1
      { reply := .issued ⟨host, sequence, connection⟩
        lane := some ⟨sequence, (g.lane host).outstanding.insert sequence connection⟩
        note := some (connection, fun count => some (count.getD 0 + 1))
        counts := [Metrics.syncTicketsIssued]
        move := .raise }
  | complete sequence _ =>
      match g.owner? host sequence with
      | none => { reply := .completed false, lane := g.lanes[host]? }
      | some owner =>
          { reply := .completed true
            lane := g.lanes[host]?.map fun lane =>
              { lane with outstanding := lane.outstanding.erase sequence }
            note := some (owner, oneLess)
            move := .lower 1 }
  | advance =>
      let sequence := g.lastIssued host + 1
      { reply := .advanced sequence
        lane := some { g.lane host with lastIssued := sequence } }
  | drain =>
      let pending := g.pendingOn host (g.lastIssued host)
      { reply := .drainEnded (.ofPending pending)
        lane := g.lanes[host]?.map fun lane =>
          { lane with outstanding := (g.keptLane host).outstanding }
        counts := if g.lanes.contains host then drainCounts pending else []
        move := .lower (g.abandoned host).length }

variable {g g' : Gate} {host : HostId}

/-- A step reads nothing but its lane and which connections are closed. -/
theorem effect_congr (hlane : g.lanes[host]? = g'.lanes[host]?)
    (hclosed : ∀ connection, g.isClosed connection = g'.isClosed connection) (step : LaneStep) :
    step.effect g host = step.effect g' host := by
  have hsame : g.lane host = g'.lane host := by
    simp only [Gate.lane, ExtTreeMap.getD_eq_getD_getElem?, hlane]
  have hkept : g.keptLane host = g'.keptLane host := by
    simp only [Gate.keptLane, hsame, hclosed]
  have hknown : g.lanes.contains host = g'.lanes.contains host := by
    simp only [ExtTreeMap.contains_eq_isSome_getElem?, hlane]
  cases step with
  | beginWait connection => simp only [effect, Gate.lastIssued, hsame]
  | complete sequence connection => simp only [effect, Gate.owner?, hsame, hlane]
  | advance => simp only [effect, Gate.lastIssued, hsame]
  | drain =>
      simp only [effect, Gate.pendingOn, Gate.lastIssued, Gate.abandoned, hsame, hkept, hlane,
        hknown, hclosed]

/-- A step on another host leaves the effect of a step as it is. -/
theorem effect_onGate {host' : HostId} (hne : host ≠ host') (step : LaneStep)
    (other : LaneEffect) :
    step.effect (other.onGate host' g) host = step.effect g host := by
  apply effect_congr
  · rw [LaneEffect.getElem?_lanes_onGate, if_neg hne.symm]
  · intro connection
    exact other.isClosed_onGate host' g connection

/-- No step takes more from the gauge than is outstanding on its host. -/
theorem taken_le_outstanding (g : Gate) (host : HostId) (step : LaneStep) {taken : Nat}
    (h : (step.effect g host).move = .lower taken) : taken ≤ g.outstanding host := by
  cases step with
  | beginWait connection => cases h
  | complete sequence connection =>
      simp only [effect] at h
      split at h
      · cases h
        exact Nat.zero_le _
      · next owner howner =>
        cases h
        exact g.outstanding_pos_of_owner? howner
  | advance =>
      cases h
      exact Nat.zero_le _
  | drain =>
      cases h
      rw [← g.outstanding_releaseClosed {} host]
      exact Nat.le_add_left _ _

end LaneStep

/-! ## Steps by their effects -/

namespace Gate

variable (g : Gate) (m : Metrics) (host : HostId)

theorem meter_meter (change change' : Metrics → Metrics) :
    g.meter (g.meter m change) change' = g.meter m fun m => change' (change m) := by
  unfold meter
  split <;> rfl

theorem meter_self : g.meter m (fun m => m) = m := by
  unfold meter
  split <;> rfl

@[simp]
theorem lane_releaseClosed_self : (g.releaseClosed m host).1.lane host = g.keptLane host := by
  rw [lane_releaseClosed, if_pos rfl]
  rfl

@[simp]
theorem keptLane_releaseClosed :
    (g.releaseClosed m host).1.keptLane host = g.keptLane host := by
  have hagain := congrArg (·.lane host) (g.releaseClosed_releaseClosed m m host)
  simpa using hagain

theorem metrics_releaseClosed :
    (g.releaseClosed m host).2 =
      g.meter m (·.moveGauge (.lower (g.abandoned host).length)) := by
  have hsplit := g.outstanding_releaseClosed m host
  rw [outstanding, lane_releaseClosed_self] at hsplit
  have hcount : (g.abandoned host).length =
      (g.lane host).outstanding.size - (g.keptLane host).outstanding.size := by
    rw [outstanding] at hsplit
    omega
  simp only [releaseClosed, Metrics.moveGauge, List.foldl_const, List.length_range, hcount]
  rfl

theorem reevaluate_eq (waiter : Waiter) :
    g.reevaluate m waiter =
      (g.pendingOn waiter.host waiter.snapshot, g.releaseClosed m waiter.host) := by
  rw [pendingOn, ← g.lane_releaseClosed_self m waiter.host]
  rfl

/-- The second look of a drain finds what the first has left. -/
theorem expireDrain_releaseClosed (m' : Metrics) (snapshot : UInt64) :
    (g.releaseClosed m host).1.expireDrain m' ⟨host, snapshot⟩ =
      (.ofPending (g.pendingOn host snapshot), (g.releaseClosed m host).1,
        g.meter m' (·.countAll
          (if g.pendingOn host snapshot = 0 then [] else [Metrics.syncDrainTimeouts]))) := by
  have hpending : (g.releaseClosed m host).1.pendingOn host snapshot =
      g.pendingOn host snapshot := by
    rw [pendingOn, keptLane_releaseClosed, pendingOn]
  have hmetrics : ((g.releaseClosed m host).1.releaseClosed m' host).2 = m' := by
    rw [metrics_releaseClosed, abandoned_releaseClosed]
    exact meter_self _ m'
  have hgate := g.releaseClosed_releaseClosed m m' host
  rw [expireDrain, reevaluate_eq, hpending]
  simp only [hgate, hmetrics]
  by_cases hzero : g.pendingOn host snapshot = 0
  · simp only [hzero, DrainOutcome.ofPending, if_true]
    exact congrArg (fun m => (_, _, m)) (g.meter_self m').symm
  · simp only [hzero, DrainOutcome.ofPending, if_false]
    rfl

/-- A drain of a host without a lane does nothing. -/
theorem awaitDrain_of_not_mem (h : host ∉ g.lanes) : g.awaitDrain m host = (.drained, g, m) := by
  have hunknown : ¬ g.lanes.contains host = true := by simpa using h
  simp only [awaitDrain, beginDrain, if_neg hunknown, endDrain]

theorem awaitDrain_of_mem (h : host ∈ g.lanes) :
    g.awaitDrain m host =
      (.ofPending (g.pendingOn host (g.lastIssued host)), (g.releaseClosed m host).1,
        g.meter m fun m =>
          ((m.count Metrics.syncDrainWaits 1).moveGauge
            (.lower (g.abandoned host).length)).countAll
            (if g.pendingOn host (g.lastIssued host) = 0 then []
              else [Metrics.syncDrainTimeouts])) := by
  have hknown : g.lanes.contains host = true := by simpa using h
  simp only [awaitDrain, beginDrain, if_pos hknown, reevaluate_eq]
  by_cases hzero : g.pendingOn host (g.lastIssued host) = 0
  · simp only [hzero, if_true, endDrain, DrainOutcome.ofPending]
    rw [metrics_releaseClosed, meter_meter]
    rfl
  · simp only [hzero, if_false, endDrain]
    rw [expireDrain_releaseClosed, metrics_releaseClosed, meter_meter, meter_meter]
    simp only [hzero, if_false]
    rfl

end Gate

namespace LaneStep

/-- A drain that nothing interrupts does all that it does at its first look. -/
theorem perform_drain (g : Gate) (m : Metrics) (host : HostId) :
    (GateStep.drain host).perform g m =
      ((drain.effect g host).reply, (drain.effect g host).onGate host g,
        g.meter m (·.record (drain.effect g host))) := by
  have hgate : (g.releaseClosed m host).1 = (drain.effect g host).onGate host g := by
    simp only [Gate.releaseClosed, modify_eq_alter g.lanes]
    rfl
  by_cases hmem : host ∈ g.lanes
  · have hknown : g.lanes.contains host = true := by simpa using hmem
    simp only [GateStep.perform, g.awaitDrain_of_mem m host hmem, hgate,
      Metrics.countAll_moveGauge]
    simp only [effect, Metrics.record, if_pos hknown]
    rfl
  · have hknown : ¬ g.lanes.contains host = true := by simpa using hmem
    have hempty := g.lane_of_not_mem hmem
    have hpending : g.pendingOn host (g.lastIssued host) = 0 := by
      rw [Gate.pendingOn, Gate.keptLane, hempty]
      rfl
    have habandoned : g.abandoned host = [] := by
      rw [Gate.abandoned, hempty]
      rfl
    rw [← hgate, g.releaseClosed_of_not_mem m hmem]
    simp only [GateStep.perform, g.awaitDrain_of_not_mem m host hmem, effect, hpending,
      habandoned, Metrics.record, if_neg hknown]
    exact congrArg (fun m => (_, _, m)) (g.meter_self m).symm

/-- What a step does is its effect. -/
theorem perform_on (g : Gate) (m : Metrics) (host : HostId) (step : LaneStep) :
    (step.on host).perform g m =
      ((step.effect g host).reply, (step.effect g host).onGate host g,
        g.meter m (·.record (step.effect g host))) := by
  cases step with
  | beginWait connection =>
      simp only [on, GateStep.perform, Gate.beginWait, insert_eq_alter g.lanes]
      rfl
  | complete sequence connection =>
      simp only [on, GateStep.perform, Gate.complete, effect]
      cases g.owner? host sequence with
      | none =>
          simp only [LaneEffect.onGate, alter_getElem?]
          exact congrArg (fun m => (_, _, m)) (g.meter_self m).symm
      | some owner =>
          simp only [modify_eq_alter g.lanes]
          rfl
  | advance =>
      simp only [on, GateStep.perform, Gate.advance, insert_eq_alter]
      exact congrArg (fun m => (_, _, m)) (g.meter_self m).symm
  | drain => exact perform_drain g m host

end LaneStep

end ControlPlane
