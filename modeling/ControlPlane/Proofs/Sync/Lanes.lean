/-
# What the operations of a gate do to its lanes

Every operation of a gate is read here through two observations: the lane of a host, which
is its last number and its outstanding tickets, and whether a connection is closed. Later
proofs use these equations and never open the trees of lanes and connections.

A drain of a host has a single effect on the gate, however it ends and however often it looks:
the tickets of closed connections are released. Looking again finds nothing to release.
-/

import ControlPlane.Sync.Gate
import Mathlib.Data.List.Basic

namespace ControlPlane.Gate

open Std (ExtTreeMap)

variable (g : Gate) (m : Metrics)

/-- A gate on which nothing has happened. -/
structure IsNew : Prop where
  lanes_eq : g.lanes = ∅
  connections_eq : g.connections = ∅
  nextConnection_eq : g.nextConnection = 1

/-- The numbers of a host's outstanding tickets whose connections are closed. -/
def abandoned (host : HostId) : List UInt64 :=
  ((g.lane host).outstanding.filter fun _ owner => g.isClosed owner).keys

/-! ## Connections -/

@[simp]
theorem lane_openConnection (host : HostId) : g.openConnection.2.lane host = g.lane host := rfl

@[simp]
theorem lane_closeConnection (connection : ConnectionId) (host : HostId) :
    (g.closeConnection connection).lane host = g.lane host := rfl

/-- A connection is open when it is registered. -/
theorem isClosed_openConnection (connection : ConnectionId) :
    g.openConnection.2.isClosed connection =
      (!decide (⟨g.nextConnection⟩ = connection) && g.isClosed connection) := by
  simp only [openConnection, isClosed, ExtTreeMap.getElem?_insert,
    Std.LawfulEqOrd.compare_eq_iff_eq]
  split <;> simp_all

/-- Only a connection that is known can be closed. -/
theorem isClosed_closeConnection (connection other : ConnectionId) :
    (g.closeConnection connection).isClosed other =
      (g.isClosed other || decide (connection = other) && g.connections.contains other) := by
  simp only [closeConnection, isClosed, ExtTreeMap.contains_eq_isSome_getElem?]
  by_cases heq : connection = other
  · subst heq
    rw [ExtTreeMap.getElem?_modify_self]
    cases g.connections[connection]? with
    | none => simp
    | some c => cases hclosed : c.isClosed <;> simp [hclosed]
  · simp [ExtTreeMap.getElem?_modify, heq]

/-- A change of what a connection waits for does not close it. -/
theorem any_isClosed_modify (connections : ExtTreeMap ConnectionId Connection)
    {change : Connection → Connection} (hchange : ∀ c, (change c).isClosed = c.isClosed)
    (connection other : ConnectionId) :
    (connections.modify connection change)[other]?.any Connection.isClosed =
      connections[other]?.any Connection.isClosed := by
  by_cases heq : connection = other
  · subst heq
    rw [ExtTreeMap.getElem?_modify_self]
    cases connections[connection]? with
    | none => rfl
    | some c => simp [hchange]
  · simp [ExtTreeMap.getElem?_modify, heq]

/-! ## Tickets -/

theorem lane_beginWait (host other : HostId) (connection : ConnectionId) :
    (g.beginWait m host connection).2.1.lane other =
      if host = other then
        { lastIssued := g.lastIssued other + 1
          outstanding := (g.lane other).outstanding.insert (g.lastIssued other + 1) connection }
      else g.lane other := by
  simp only [beginWait, lane, lastIssued, ExtTreeMap.getD_insert,
    Std.LawfulEqOrd.compare_eq_iff_eq]
  by_cases heq : host = other
  · subst heq
    rfl
  · rw [if_neg heq, if_neg heq]

@[simp]
theorem isClosed_beginWait (host : HostId) (connection other : ConnectionId) :
    (g.beginWait m host connection).2.1.isClosed other = g.isClosed other := by
  apply any_isClosed_modify
  intro c
  rfl

theorem lane_of_not_mem {host : HostId} (h : host ∉ g.lanes) : g.lane host = {} :=
  ExtTreeMap.getD_eq_fallback h

/-- A change of a host's lane that leaves an empty lane empty. -/
theorem getD_modify_lanes (lanes : ExtTreeMap HostId Lane) {host : HostId} {change : Lane → Lane}
    (hempty : host ∉ lanes → change {} = {}) (other : HostId) :
    (lanes.modify host change).getD other {} =
      if host = other then change (lanes.getD other {}) else lanes.getD other {} := by
  simp only [ExtTreeMap.getD_eq_getD_getElem?]
  by_cases heq : host = other
  · subst heq
    rw [if_pos rfl, ExtTreeMap.getElem?_modify_self]
    by_cases hknown : host ∈ lanes
    · obtain ⟨lane, hlane⟩ := Option.isSome_iff_exists.mp
        (ExtTreeMap.isSome_getElem?_iff_mem.mpr hknown)
      rw [hlane]
      rfl
    · rw [ExtTreeMap.getElem?_eq_none hknown, Option.map_none, Option.getD_none, hempty hknown]
  · simp [ExtTreeMap.getElem?_modify, heq]

/-- Whether a ticket was outstanding or not, it no longer is. -/
theorem lane_complete (ticket : SyncTicket) (other : HostId) :
    (g.complete m ticket).2.1.lane other =
      if ticket.host = other then
        { g.lane other with outstanding := (g.lane other).outstanding.erase ticket.sequence }
      else g.lane other := by
  unfold complete
  split
  · next hnone =>
    by_cases heq : ticket.host = other
    · subst heq
      have herase : (g.lane ticket.host).outstanding.erase ticket.sequence =
          (g.lane ticket.host).outstanding := by
        apply ExtTreeMap.ext_getElem?
        intro sequence
        by_cases hsame : ticket.sequence = sequence
        · subst hsame
          rw [ExtTreeMap.getElem?_erase_self]
          exact hnone.symm
        · simp [ExtTreeMap.getElem?_erase, hsame]
      rw [if_pos rfl, herase]
    · rw [if_neg heq]
  · next owner howner => exact getD_modify_lanes g.lanes (fun _ => rfl) other

@[simp]
theorem isClosed_complete (ticket : SyncTicket) (other : ConnectionId) :
    (g.complete m ticket).2.1.isClosed other = g.isClosed other := by
  unfold complete
  split
  · rfl
  · apply any_isClosed_modify
    intro c
    rfl

/-- A ticket is completed exactly if it is outstanding. -/
theorem complete_fst (ticket : SyncTicket) :
    (g.complete m ticket).1 = (g.owner? ticket.host ticket.sequence).isSome := by
  unfold complete
  split
  · next hnone => rw [hnone]; rfl
  · next owner howner => rw [howner]; rfl

/-! ## Numbers without a ticket -/

theorem lane_advance (host other : HostId) :
    (g.advance host).2.lane other =
      if host = other then { g.lane other with lastIssued := g.lastIssued other + 1 }
      else g.lane other := by
  simp only [advance, lane, lastIssued, ExtTreeMap.getD_insert, Std.LawfulEqOrd.compare_eq_iff_eq]
  by_cases heq : host = other
  · subst heq
    rfl
  · rw [if_neg heq, if_neg heq]

@[simp]
theorem isClosed_advance (host : HostId) (connection : ConnectionId) :
    (g.advance host).2.isClosed connection = g.isClosed connection := rfl

/-- Advancing changes nothing but lanes. -/
theorem advanceAll_snd (hosts : List HostId) :
    (g.advanceAll hosts).2 = { g with lanes := (g.advanceAll hosts).2.lanes } := by
  induction hosts generalizing g with
  | nil => rfl
  | cons host rest ih => exact ih (g.advance host).2

@[simp]
theorem isClosed_advanceAll (hosts : List HostId) (connection : ConnectionId) :
    (g.advanceAll hosts).2.isClosed connection = g.isClosed connection := by
  rw [advanceAll_snd]
  rfl

/-- Each host of a list without repetitions advances once. -/
theorem lane_advanceAll {hosts : List HostId} (hnodup : hosts.Nodup) (other : HostId) :
    (g.advanceAll hosts).2.lane other =
      if other ∈ hosts then { g.lane other with lastIssued := g.lastIssued other + 1 }
      else g.lane other := by
  induction hosts generalizing g with
  | nil => rfl
  | cons host rest ih =>
      obtain ⟨hfresh, hrest⟩ := List.nodup_cons.mp hnodup
      refine (ih (g.advance host).2 hrest).trans ?_
      simp only [lastIssued, lane_advance, List.mem_cons]
      by_cases heq : host = other
      · subst heq
        simp [hfresh]
      · simp [heq, Ne.symm heq]

/-- The numbers used up are the next ones of the hosts. -/
theorem advanceAll_fst {hosts : List HostId} (hnodup : hosts.Nodup) :
    (g.advanceAll hosts).1 = hosts.map fun host => (host, g.lastIssued host + 1) := by
  induction hosts generalizing g with
  | nil => rfl
  | cons host rest ih =>
      obtain ⟨hfresh, hrest⟩ := List.nodup_cons.mp hnodup
      change (host, g.lastIssued host + 1) :: ((g.advance host).2.advanceAll rest).1 = _
      rw [ih (g.advance host).2 hrest, List.map_cons]
      congr 1
      apply List.map_congr_left
      intro other hother
      have hne : host ≠ other := fun h => hfresh (h ▸ hother)
      simp only [lastIssued, lane_advance, if_neg hne]

/-! ## Tickets of closed connections -/

theorem lane_releaseClosed (host other : HostId) :
    (g.releaseClosed m host).1.lane other =
      if host = other then
        { g.lane other with
          outstanding := (g.lane other).outstanding.filter fun _ owner => !g.isClosed owner }
      else g.lane other := by
  have hempty (h : host ∉ g.lanes) :
      { ({} : Lane) with
        outstanding := (g.lane host).outstanding.filter fun _ owner => !g.isClosed owner } =
      {} := by
    rw [g.lane_of_not_mem h]
    rfl
  refine (getD_modify_lanes g.lanes hempty other).trans ?_
  by_cases heq : host = other
  · subst heq
    rfl
  · rw [if_neg heq, if_neg heq]
    rfl

@[simp]
theorem isClosed_releaseClosed (host : HostId) (connection : ConnectionId) :
    (g.releaseClosed m host).1.isClosed connection = g.isClosed connection := rfl

/-- A host without a lane has nothing to release. -/
theorem releaseClosed_of_not_mem {host : HostId} (h : host ∉ g.lanes) :
    (g.releaseClosed m host).1 = g := by
  have hlanes (change : Lane → Lane) : g.lanes.modify host change = g.lanes := by
    apply ExtTreeMap.ext_getElem?
    intro other
    by_cases heq : host = other
    · subst heq
      rw [ExtTreeMap.getElem?_modify_self, ExtTreeMap.getElem?_eq_none h]
      rfl
    · simp [ExtTreeMap.getElem?_modify, heq]
  rw [releaseClosed, hlanes]

/-- Looking again finds nothing to release. -/
theorem releaseClosed_releaseClosed (m' : Metrics) (host : HostId) :
    ((g.releaseClosed m host).1.releaseClosed m' host).1 = (g.releaseClosed m host).1 := by
  have hkept : ((g.releaseClosed m host).1.lane host).outstanding.filter
      (fun _ owner => !(g.releaseClosed m host).1.isClosed owner) =
      (g.lane host).outstanding.filter fun _ owner => !g.isClosed owner := by
    apply ExtTreeMap.ext_getElem?
    intro sequence
    simp [lane_releaseClosed]
  rw [releaseClosed, hkept]
  simp only [releaseClosed]
  congr 1
  apply ExtTreeMap.ext_getElem?
  intro other
  by_cases heq : host = other
  · subst heq
    simp only [ExtTreeMap.getElem?_modify_self, Option.map_map]
    rfl
  · simp [ExtTreeMap.getElem?_modify, heq]

/-- What is released and what is kept make up what was outstanding. -/
theorem outstanding_releaseClosed (host : HostId) :
    (g.releaseClosed m host).1.outstanding host + (g.abandoned host).length =
      g.outstanding host := by
  simp only [outstanding, abandoned, lane_releaseClosed, if_true, ExtTreeMap.length_keys,
    ← ExtTreeMap.length_toList, ExtTreeMap.toList_filter]
  have hsplit := List.length_eq_length_filter_add (l := (g.lane host).outstanding.toList)
    fun ticket => g.isClosed ticket.2
  omega

theorem mem_abandoned_iff {host : HostId} {sequence : UInt64} :
    sequence ∈ g.abandoned host ↔
      ∃ owner, g.owner? host sequence = some owner ∧ g.isClosed owner = true := by
  rw [abandoned, ExtTreeMap.mem_keys, ← ExtTreeMap.isSome_getElem?_iff_mem,
    ExtTreeMap.getElem?_filter', Option.isSome_filter, Option.any_eq_true]
  rfl

theorem nodup_keys {β : Type} (outstanding : ExtTreeMap UInt64 β) : outstanding.keys.Nodup :=
  ExtTreeMap.distinct_keys.imp fun hne heq => hne (Std.LawfulEqOrd.compare_eq_iff_eq.mpr heq)

theorem mem_keys_outstanding_iff {host : HostId} {sequence : UInt64} :
    sequence ∈ (g.lane host).outstanding.keys ↔ ∃ owner, g.owner? host sequence = some owner := by
  rw [ExtTreeMap.mem_keys, ← ExtTreeMap.isSome_getElem?_iff_mem, Option.isSome_iff_exists]
  rfl

/-! ## Drains -/

/-- A drain that begins releases the tickets of closed connections, even where it does not
have to wait. -/
theorem gate_beginDrain (host : HostId) :
    (g.beginDrain m host).2.1 = (g.releaseClosed m host).1 := by
  unfold beginDrain
  split
  · rfl
  · next hunknown =>
    rw [ExtTreeMap.contains_iff_mem] at hunknown
    exact (g.releaseClosed_of_not_mem m hunknown).symm

theorem gate_reevaluate (waiter : Waiter) :
    (g.reevaluate m waiter).2.1 = (g.releaseClosed m waiter.host).1 := rfl

theorem gate_expireDrain (waiter : Waiter) :
    (g.expireDrain m waiter).2.1 = (g.releaseClosed m waiter.host).1 := by
  rw [← gate_reevaluate, expireDrain]
  rcases g.reevaluate m waiter with ⟨pending, g', m'⟩
  by_cases hpending : pending = 0 <;> simp [hpending]

theorem expireDrain_fst (waiter : Waiter) :
    (g.expireDrain m waiter).1 =
      let pending :=
        ((g.releaseClosed m waiter.host).1.lane waiter.host).pendingThrough waiter.snapshot
      if pending = 0 then .drained else .timedOut pending := by
  exact apply_ite Prod.fst _ _ _

/-- A drain that begins has to wait for what was issued last, unless nothing of it is left. -/
theorem beginDrain_fst (host : HostId) :
    (g.beginDrain m host).1 =
      if ((g.releaseClosed m host).1.lane host).pendingThrough (g.lastIssued host) = 0 then none
      else some ⟨host, g.lastIssued host⟩ := by
  unfold beginDrain
  split
  · rfl
  · next hunknown =>
    rw [ExtTreeMap.contains_iff_mem] at hunknown
    rw [g.releaseClosed_of_not_mem m hunknown, g.lane_of_not_mem hunknown]
    rfl

theorem beginDrain_fst_eq_some {host : HostId} {waiter : Waiter}
    (h : (g.beginDrain m host).1 = some waiter) : waiter = ⟨host, g.lastIssued host⟩ := by
  rw [beginDrain_fst] at h
  split at h
  · cases h
  · exact (Option.some.inj h).symm

theorem gate_awaitDrain (host : HostId) :
    (g.awaitDrain m host).2.1 = (g.releaseClosed m host).1 := by
  have hgate := g.gate_beginDrain m host
  have hwaiter (waiter : Waiter) (h : (g.beginDrain m host).1 = some waiter) :
      waiter.host = host := by
    rw [g.beginDrain_fst_eq_some m h]
  rw [awaitDrain]
  rcases hbegin : g.beginDrain m host with ⟨waiter?, g', m'⟩
  rw [hbegin] at hgate hwaiter
  obtain rfl : g' = (g.releaseClosed m host).1 := hgate
  cases waiter? with
  | none => rfl
  | some waiter =>
      obtain rfl := hwaiter waiter rfl
      exact (gate_expireDrain _ _ _).trans (g.releaseClosed_releaseClosed _ _ _)

/-! ## Owners and last numbers -/

theorem owner?_beginWait (host other : HostId) (connection : ConnectionId) (sequence : UInt64) :
    (g.beginWait m host connection).2.1.owner? other sequence =
      if host = other ∧ g.lastIssued other + 1 = sequence then some connection
      else g.owner? other sequence := by
  by_cases heq : host = other
  · simp [owner?, lane_beginWait, heq, ExtTreeMap.getElem?_insert]
  · simp [owner?, lane_beginWait, heq]

theorem lastIssued_beginWait (host other : HostId) (connection : ConnectionId) :
    (g.beginWait m host connection).2.1.lastIssued other =
      if host = other then g.lastIssued other + 1 else g.lastIssued other := by
  simp only [lastIssued, lane_beginWait]
  split <;> rfl

theorem owner?_complete (ticket : SyncTicket) (other : HostId) (sequence : UInt64) :
    (g.complete m ticket).2.1.owner? other sequence =
      if ticket.host = other ∧ ticket.sequence = sequence then none
      else g.owner? other sequence := by
  by_cases heq : ticket.host = other
  · simp [owner?, lane_complete, heq, ExtTreeMap.getElem?_erase]
  · simp [owner?, lane_complete, heq]

@[simp]
theorem lastIssued_complete (ticket : SyncTicket) (other : HostId) :
    (g.complete m ticket).2.1.lastIssued other = g.lastIssued other := by
  simp only [lastIssued, lane_complete]
  split <;> rfl

@[simp]
theorem owner?_advance (host other : HostId) (sequence : UInt64) :
    (g.advance host).2.owner? other sequence = g.owner? other sequence := by
  simp only [owner?, lane_advance]
  split <;> rfl

theorem lastIssued_advance (host other : HostId) :
    (g.advance host).2.lastIssued other =
      if host = other then g.lastIssued other + 1 else g.lastIssued other := by
  simp only [lastIssued, lane_advance]
  split <;> rfl

theorem owner?_advanceAll {hosts : List HostId} (hnodup : hosts.Nodup) (other : HostId)
    (sequence : UInt64) :
    (g.advanceAll hosts).2.owner? other sequence = g.owner? other sequence := by
  simp only [owner?, g.lane_advanceAll hnodup]
  split <;> rfl

theorem lastIssued_advanceAll {hosts : List HostId} (hnodup : hosts.Nodup) (other : HostId) :
    (g.advanceAll hosts).2.lastIssued other =
      if other ∈ hosts then g.lastIssued other + 1 else g.lastIssued other := by
  simp only [lastIssued, g.lane_advanceAll hnodup]
  split <;> rfl

theorem owner?_releaseClosed (host other : HostId) (sequence : UInt64) :
    (g.releaseClosed m host).1.owner? other sequence =
      if host = other then (g.owner? other sequence).filter fun owner => !g.isClosed owner
      else g.owner? other sequence := by
  by_cases heq : host = other
  · simp [owner?, lane_releaseClosed, heq]
  · simp [owner?, lane_releaseClosed, heq]

@[simp]
theorem lastIssued_releaseClosed (host other : HostId) :
    (g.releaseClosed m host).1.lastIssued other = g.lastIssued other := by
  simp only [lastIssued, lane_releaseClosed]
  split <;> rfl

end ControlPlane.Gate
