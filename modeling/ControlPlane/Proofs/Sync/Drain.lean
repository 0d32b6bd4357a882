/-
# What a drain waits for

A drain answers for the tickets that were issued for its host before it was called. How it ends
is determined by the other events alone: it times out exactly if some of these tickets were
neither completed nor had their connection closed, and then it tells how many. When and how
often its waiter looks makes no difference, because a look only drops tickets of closed
connections, and nobody waits for these. Two gates that differ in nothing else agree, and keep
agreeing whatever happens to both.
-/

import ControlPlane.Proofs.Sync.Connections

namespace ControlPlane

open Std (ExtTreeMap)

namespace Gate

/-! ## Gates that await the same -/

/-- The connection that holds a number, if it is still open. -/
def awaited? (g : Gate) (host : HostId) (number : UInt64) : Option ConnectionId :=
  (g.owner? host number).filter fun owner => !g.isClosed owner

theorem awaited?_eq_some_iff {g : Gate} {host : HostId} {number : UInt64} {owner : ConnectionId} :
    g.awaited? host number = some owner ↔
      g.owner? host number = some owner ∧ g.isClosed owner = false := by
  simp [awaited?, Option.filter_eq_some_iff]

/-- Gates that differ only in tickets of closed connections, and in what the connections hold. -/
structure Agrees (g g' : Gate) : Prop where
  lastIssued_eq : ∀ host, g.lastIssued host = g'.lastIssued host
  nextConnection_eq : g.nextConnection = g'.nextConnection
  mem_iff : ∀ connection, connection ∈ g.connections ↔ connection ∈ g'.connections
  isClosed_eq : ∀ connection, g.isClosed connection = g'.isClosed connection
  awaited?_eq : ∀ host number, g.awaited? host number = g'.awaited? host number

theorem isClosed_openConnection_of_fresh {g : Gate} (hfresh : g.isClosed ⟨g.nextConnection⟩ = false)
    (connection : ConnectionId) :
    g.openConnection.2.isClosed connection = g.isClosed connection := by
  rw [isClosed_openConnection]
  by_cases heq : (⟨g.nextConnection⟩ : ConnectionId) = connection
  · subst heq
    simp [hfresh]
  · simp [heq]

theorem awaited?_openConnection_of_fresh {g : Gate}
    (hfresh : g.isClosed ⟨g.nextConnection⟩ = false) (host : HostId) (number : UInt64) :
    g.openConnection.2.awaited? host number = g.awaited? host number := by
  simp only [awaited?, isClosed_openConnection_of_fresh hfresh]
  rfl

theorem awaited?_closeConnection (g : Gate) (connection : ConnectionId) (host : HostId)
    (number : UInt64) :
    (g.closeConnection connection).awaited? host number =
      (g.awaited? host number).filter fun owner =>
        !(decide (connection = owner) && g.connections.contains owner) := by
  simp only [awaited?, owner?, lane_closeConnection, isClosed_closeConnection,
    Option.filter_filter]
  congr 1
  funext owner
  rw [Bool.not_or, Bool.and_comm]

theorem awaited?_beginWait (g : Gate) (m : Metrics) (host other : HostId)
    (connection : ConnectionId) (number : UInt64) :
    (g.beginWait m host connection).2.1.awaited? other number =
      if host = other ∧ g.lastIssued other + 1 = number then
        (some connection).filter fun owner => !g.isClosed owner
      else g.awaited? other number := by
  simp only [awaited?, owner?_beginWait, isClosed_beginWait]
  split <;> rfl

theorem awaited?_complete (g : Gate) (m : Metrics) (ticket : SyncTicket) (other : HostId)
    (number : UInt64) :
    (g.complete m ticket).2.1.awaited? other number =
      if ticket.host = other ∧ ticket.sequence = number then none
      else g.awaited? other number := by
  simp only [awaited?, owner?_complete, isClosed_complete]
  split <;> rfl

theorem awaited?_advance (g : Gate) (host other : HostId) (number : UInt64) :
    (g.advance host).2.awaited? other number = g.awaited? other number := by
  simp only [awaited?, owner?_advance, isClosed_advance]

theorem awaited?_advanceAll (g : Gate) {hosts : List HostId} (hnodup : hosts.Nodup)
    (other : HostId) (number : UInt64) :
    (g.advanceAll hosts).2.awaited? other number = g.awaited? other number := by
  simp only [awaited?, g.owner?_advanceAll hnodup, isClosed_advanceAll]

theorem awaited?_releaseClosed (g : Gate) (m : Metrics) (host other : HostId) (number : UInt64) :
    (g.releaseClosed m host).1.awaited? other number = g.awaited? other number := by
  simp only [awaited?, owner?_releaseClosed, isClosed_releaseClosed]
  split
  · rw [Option.filter_filter]
    simp
  · rfl

namespace Agrees

variable {g g' : Gate}

theorem refl (g : Gate) : g.Agrees g :=
  ⟨fun _ => rfl, rfl, fun _ => Iff.rfl, fun _ => rfl, fun _ _ => rfl⟩

/-- Dropping tickets of closed connections is not noticed. -/
theorem releaseClosed (h : g.Agrees g') (m : Metrics) (host : HostId) :
    g.Agrees (g'.releaseClosed m host).1 where
  lastIssued_eq other := by rw [lastIssued_releaseClosed, h.lastIssued_eq]
  nextConnection_eq := h.nextConnection_eq
  mem_iff := h.mem_iff
  isClosed_eq := h.isClosed_eq
  awaited?_eq other number := by rw [awaited?_releaseClosed, h.awaited?_eq]

theorem symm (h : g.Agrees g') : g'.Agrees g where
  lastIssued_eq host := (h.lastIssued_eq host).symm
  nextConnection_eq := h.nextConnection_eq.symm
  mem_iff connection := (h.mem_iff connection).symm
  isClosed_eq connection := (h.isClosed_eq connection).symm
  awaited?_eq host number := (h.awaited?_eq host number).symm

end Agrees

end Gate

namespace SyncWorld

variable {σ : Type}

/-- Gates that agree keep agreeing whatever happens to both. -/
theorem agrees_next {p q : SyncWorld σ} (h : p.gate.Agrees q.gate) {event : SyncEvent}
    (hfresh : ∀ connection, p.gate.isClosed connection = true → connection ∉ p.opened event) :
    (p.next event).gate.Agrees (q.next event).gate := by
  -- what is opened and known is the same for all events, what is awaited depends on the event
  have hopened := opened_eq_of_nextConnection_eq h.nextConnection_eq event
  have hnext : (p.next event).gate.nextConnection = (q.next event).gate.nextConnection := by
    rw [nextConnection_next, nextConnection_next, h.nextConnection_eq, hopened]
  have hmem (connection : ConnectionId) : connection ∈ (p.next event).gate.connections ↔
      connection ∈ (q.next event).gate.connections := by
    rw [mem_connections_next_iff, mem_connections_next_iff, h.mem_iff, hopened]
  induction event using SyncEvent.byEffect with
  | opened =>
      have hp : p.gate.isClosed ⟨p.gate.nextConnection⟩ = false := by
        apply Bool.eq_false_iff.mpr
        intro hclosed
        exact hfresh _ hclosed (List.mem_singleton.mpr rfl)
      have hq : q.gate.isClosed ⟨q.gate.nextConnection⟩ = false := by
        rw [← h.nextConnection_eq, ← h.isClosed_eq, hp]
      refine ⟨h.lastIssued_eq, hnext, hmem, ?_, ?_⟩
      · intro connection
        rw [gate_next_open, gate_next_open, Gate.isClosed_openConnection_of_fresh hp,
          Gate.isClosed_openConnection_of_fresh hq, h.isClosed_eq]
      · intro host number
        rw [gate_next_open, gate_next_open, Gate.awaited?_openConnection_of_fresh hp,
          Gate.awaited?_openConnection_of_fresh hq, h.awaited?_eq]
  | closed connection =>
      have hknown (other : ConnectionId) :
          p.gate.connections.contains other = q.gate.connections.contains other := by
        rw [Bool.eq_iff_iff, ExtTreeMap.contains_iff_mem, ExtTreeMap.contains_iff_mem]
        exact h.mem_iff other
      refine ⟨h.lastIssued_eq, hnext, hmem, ?_, ?_⟩
      · intro other
        simp only [gate_next_close, Gate.isClosed_closeConnection, h.isClosed_eq, hknown]
      · intro host number
        simp only [gate_next_close, Gate.awaited?_closeConnection, h.awaited?_eq, hknown]
  | issued host connection =>
      refine ⟨?_, hnext, hmem, ?_, ?_⟩
      · intro other
        simp only [gate_next_issue, Gate.lastIssued_beginWait, h.lastIssued_eq]
      · intro other
        simp only [gate_next_issue, Gate.isClosed_beginWait, h.isClosed_eq]
      · intro other number
        simp only [gate_next_issue, Gate.awaited?_beginWait, h.lastIssued_eq, h.isClosed_eq,
          h.awaited?_eq]
  | completed ticket =>
      refine ⟨?_, hnext, hmem, ?_, ?_⟩
      · intro host
        simp only [gate_next_complete, Gate.lastIssued_complete, h.lastIssued_eq]
      · intro connection
        simp only [gate_next_complete, Gate.isClosed_complete, h.isClosed_eq]
      · intro host number
        simp only [gate_next_complete, Gate.awaited?_complete, h.awaited?_eq]
  | advanced host =>
      refine ⟨?_, hnext, hmem, h.isClosed_eq, ?_⟩
      · intro other
        simp only [gate_next_advance, Gate.lastIssued_advance, h.lastIssued_eq]
      · intro other number
        simp only [gate_next_advance, Gate.awaited?_advance, h.awaited?_eq]
  | announced event =>
      have hnodup := nodup_toList_set event.affectedHosts
      refine ⟨?_, hnext, hmem, ?_, ?_⟩
      · intro host
        simp only [gate_next_announce, Gate.lastIssued_advanceAll _ hnodup, h.lastIssued_eq]
      · intro connection
        simp only [gate_next_announce, Gate.isClosed_advanceAll, h.isClosed_eq]
      · intro host number
        simp only [gate_next_announce, Gate.awaited?_advanceAll _ hnodup, h.awaited?_eq]
  | drained event host hdrained =>
      rw [p.gate_next_of_drained hdrained, q.gate_next_of_drained hdrained]
      exact (h.symm.releaseClosed _ host).symm.releaseClosed _ host

/-! ## What is left of the tickets before a call -/

/-- The tickets of a host that were issued before a call and, some events after it, are neither
completed nor of a closed connection. What is completed and closed is read off the run in which
nobody makes the call, so nothing here depends on how the call is carried out. -/
def unobserved (w : SyncWorld σ) (host : HostId) (before after : List SyncEvent) :
    List SyncTicket :=
  (w.collect tickets before).filter fun ticket =>
    ticket.host = host ∧
      (ticket.host, ticket.sequence) ∉ w.collect completions (before ++ after) ∧
      (w.run (before ++ after)).gate.isClosed ticket.connection = false

/-- Neither the numbers of a host nor those of the connections have wrapped around, so that
numbers tell tickets and connections apart. -/
structure HasRoom (w : SyncWorld σ) (host : HostId) (events : List SyncEvent) : Prop where
  numbers_lt : (w.collect (numbers host) events).length < UInt64.size
  opened_lt : (w.collect opened events).length < UInt64.size

theorem HasRoom.of_append {w : SyncWorld σ} {host : HostId} {events later : List SyncEvent}
    (h : w.HasRoom host (events ++ later)) : w.HasRoom host events where
  numbers_lt := w.length_collect_lt_of_append h.numbers_lt
  opened_lt := w.length_collect_lt_of_append h.opened_lt

section

variable {w : SyncWorld σ} {host : HostId} {before : List SyncEvent} (hnew : w.gate.IsNew)
include hnew

/-- What is observed stays observed. -/
theorem unobserved_append_sublist {after later : List SyncEvent}
    (hroom : w.HasRoom host (before ++ (after ++ later))) :
    (w.unobserved host before (after ++ later)).Sublist (w.unobserved host before after) := by
  apply List.monotone_filter_right
  intro ticket h
  simp only [decide_eq_true_eq] at h ⊢
  obtain ⟨hhost, hpending, hopen⟩ := h
  rw [← List.append_assoc] at hpending hopen hroom
  refine ⟨hhost, ?_, ?_⟩
  · intro hcompleted
    rw [collect_append] at hpending
    exact hpending (List.mem_append_left _ hcompleted)
  · apply Bool.eq_false_iff.mpr
    intro hclosed
    rw [isClosed_run_append hnew hroom.opened_lt hclosed] at hopen
    cases hopen

/-- The tickets issued before a call are those whose numbers are not beyond the last one. -/
theorem mem_tickets_iff_of_le {after : List SyncEvent} (hroom : w.HasRoom host (before ++ after))
    {number : UInt64} {owner : ConnectionId} :
    ⟨host, number, owner⟩ ∈ w.collect tickets before ↔
      ⟨host, number, owner⟩ ∈ w.collect tickets (before ++ after) ∧
        number ≤ (w.run before).gate.lastIssued host := by
  have hbefore := hroom.of_append.numbers_lt
  rw [UInt64.le_iff_toNat_le, (toNat_numbers hnew hbefore).2]
  constructor
  · intro h
    refine ⟨?_, (bounds_of_mem_numbers hnew hbefore (w.mem_numbers_of_mem_tickets h)).2⟩
    rw [collect_append]
    exact List.mem_append_left _ h
  · intro h
    obtain ⟨hissued, hle⟩ := h
    have hpositive :=
      (bounds_of_mem_numbers hnew hroom.numbers_lt (w.mem_numbers_of_mem_tickets hissued)).1
    rw [collect_append] at hissued
    rcases List.mem_append.mp hissued with h | hlater
    · exact h
    · -- a number up to the last one is among those of before, and no number comes twice
      have hnumber : number.toNat ∈ (w.collect (numbers host) before).map UInt64.toNat := by
        rw [(toNat_numbers hnew hbefore).1, List.mem_range'_1]
        omega
      obtain ⟨earlier, hearlier, heq⟩ := List.mem_map.mp hnumber
      have hnodup := nodup_numbers hnew hroom.numbers_lt
      rw [collect_append, List.nodup_append] at hnodup
      exact absurd (UInt64.toNat.inj heq)
        (hnodup.2.2 earlier hearlier number ((w.run before).mem_numbers_of_mem_tickets hlater))

theorem mem_unobserved_iff {after : List SyncEvent} (hroom : w.HasRoom host (before ++ after))
    {number : UInt64} {owner : ConnectionId} :
    ⟨host, number, owner⟩ ∈ w.unobserved host before after ↔
      number ≤ (w.run before).gate.lastIssued host ∧
        (w.run (before ++ after)).gate.awaited? host number = some owner := by
  rw [Gate.awaited?_eq_some_iff, owner?_run_eq_some_iff hnew hroom.numbers_lt, unobserved,
    List.mem_filter, decide_eq_true_eq, mem_tickets_iff_of_le hnew hroom,
    mem_collect_released_iff, not_or]
  constructor
  · intro h
    obtain ⟨⟨hissued, hle⟩, -, hpending, hopen⟩ := h
    refine ⟨hle, ⟨hissued, hpending, ?_⟩, hopen⟩
    intro hdropped
    rw [isClosed_of_mem_drops hnew hroom.numbers_lt hroom.opened_lt hdropped hissued] at hopen
    cases hopen
  · intro h
    obtain ⟨hle, ⟨hissued, hpending, -⟩, hopen⟩ := h
    exact ⟨⟨hissued, hle⟩, rfl, hpending, hopen⟩

/-- A waiter that looks counts what is unobserved, in any gate that agrees with the run. -/
theorem pendingThrough_eq {after : List SyncEvent} (hroom : w.HasRoom host (before ++ after))
    {g : Gate} (hagrees : (w.run (before ++ after)).gate.Agrees g) (m : Metrics) :
    ((g.releaseClosed m host).1.lane host).pendingThrough
        ((w.run before).gate.lastIssued host) =
      (w.unobserved host before after).length := by
  have hunobserved : (sequencesOn host (w.unobserved host before after)).Nodup :=
    (nodup_sequences hnew hroom.of_append.numbers_lt).sublist
      ((List.filter_sublist.filter _).map _)
  have hperm : (((g.releaseClosed m host).1.lane host).outstanding.keys.filter fun number =>
      number ≤ (w.run before).gate.lastIssued host).Perm
      (sequencesOn host (w.unobserved host before after)) := by
    refine (List.perm_ext_iff_of_nodup ((Gate.nodup_keys _).filter _) hunobserved).mpr ?_
    intro number
    have hawaited : (g.releaseClosed m host).1.owner? host number =
        (w.run (before ++ after)).gate.awaited? host number := by
      rw [hagrees.awaited?_eq, Gate.owner?_releaseClosed, if_pos rfl]
      rfl
    simp only [List.mem_filter, Gate.mem_keys_outstanding_iff, mem_sequencesOn_iff,
      mem_unobserved_iff hnew hroom, hawaited, decide_eq_true_eq]
    rw [exists_and_left, and_comm]
  have hhost : (w.unobserved host before after).filter (fun ticket => ticket.host = host) =
      w.unobserved host before after := by
    apply List.filter_eq_self.mpr
    intro ticket h
    exact decide_eq_true (of_decide_eq_true (List.mem_filter.mp h).2).1
  calc ((g.releaseClosed m host).1.lane host).pendingThrough ((w.run before).gate.lastIssued host)
      = (((g.releaseClosed m host).1.lane host).outstanding.keys.filter fun number =>
          number ≤ (w.run before).gate.lastIssued host).length := by
        rw [Lane.pendingThrough, ← ExtTreeMap.map_fst_toList_eq_keys, List.filter_map,
          List.length_map, List.countP_eq_length_filter]
        rfl
    _ = (sequencesOn host (w.unobserved host before after)).length := hperm.length_eq
    _ = (w.unobserved host before after).length := by
        rw [sequencesOn, List.length_map, hhost]

end

/-- The end of a drain that leaves so many tickets unobserved. -/
def outcomeOf (unobserved : List SyncTicket) : DrainOutcome :=
  if unobserved.length = 0 then .drained else .timedOut unobserved.length

/-! ## A drain that waits -/

/-- How a drain ends that waits beside further events until its time is over. After each event
the waiter looks if its lane is among those woken, by the event or for no reason. -/
def waitBeside (w : SyncWorld σ) (waiter : Option Waiter) :
    List (SyncEvent × List HostId) → DrainOutcome
  | [] => (w.gate.endDrain w.metrics waiter).1
  | (event, woken) :: rest =>
      let w := w.next event
      let (waiter, gate, metrics) := w.gate.wake w.metrics woken waiter
      { w with gate, metrics }.waitBeside waiter rest

/-- How a drain of a host ends that is called now. -/
def drainBeside (w : SyncWorld σ) (host : HostId) (steps : List (SyncEvent × List HostId)) :
    DrainOutcome :=
  let (waiter, gate, metrics) := w.gate.beginDrain w.metrics host
  { w with gate, metrics }.waitBeside waiter steps

/-- What holds of a drain some events after it was called: the gate agrees with that of the run in
which nobody waits, and the waiter is gone only if nothing is left to wait for. -/
structure Waits (w : SyncWorld σ) (host : HostId) (before after : List SyncEvent) (g : Gate)
    (waiter : Option Waiter) : Prop where
  agrees : (w.run (before ++ after)).gate.Agrees g
  waiter_eq : ∀ v, waiter = some v → v = ⟨host, (w.run before).gate.lastIssued host⟩
  unobserved_eq : waiter = none → w.unobserved host before after = []

variable {w : SyncWorld σ} {host : HostId} {before : List SyncEvent}

namespace Waits

variable {after : List SyncEvent} {g : Gate} {waiter : Option Waiter}

/-- A waiter that looks goes away if there is nothing left to wait for. -/
theorem of_look (hnew : w.gate.IsNew) (hroom : w.HasRoom host (before ++ after))
    (hagrees : (w.run (before ++ after)).gate.Agrees g) (m : Metrics) :
    w.Waits host before after (g.releaseClosed m host).1
      (if ((g.releaseClosed m host).1.lane host).pendingThrough
          ((w.run before).gate.lastIssued host) = 0 then none
        else some ⟨host, (w.run before).gate.lastIssued host⟩) where
  agrees := hagrees.releaseClosed m host
  waiter_eq v h := by
    split at h
    · cases h
    · exact (Option.some.inj h).symm
  unobserved_eq h := by
    rw [pendingThrough_eq hnew hroom hagrees] at h
    split at h
    · next hzero => exact List.eq_nil_of_length_eq_zero hzero
    · cases h

theorem of_beginDrain (hnew : w.gate.IsNew) (hroom : w.HasRoom host before) (m : Metrics) :
    w.Waits host before [] ((w.run before).gate.beginDrain m host).2.1
      ((w.run before).gate.beginDrain m host).1 := by
  rw [Gate.beginDrain_fst, Gate.gate_beginDrain]
  rw [← List.append_nil before] at hroom
  have hagrees : (w.run (before ++ [])).gate.Agrees (w.run before).gate := by
    rw [List.append_nil]
    exact .refl _
  exact of_look hnew hroom hagrees m

theorem wake (h : w.Waits host before after g waiter) (hnew : w.gate.IsNew)
    (hroom : w.HasRoom host (before ++ after)) (m : Metrics) (woken : List HostId) :
    w.Waits host before after (g.wake m woken waiter).2.1 (g.wake m woken waiter).1 := by
  cases waiter with
  | none => exact h
  | some v =>
      obtain rfl := h.waiter_eq v rfl
      by_cases hwoken : woken.contains host
      · rw [Gate.wake, if_pos hwoken]
        exact of_look hnew hroom h.agrees m
      · rw [Gate.wake, if_neg hwoken]
        exact h

/-- An event can only bring a drain closer to its end. -/
theorem next (hnew : w.gate.IsNew) {event : SyncEvent}
    (hroom : w.HasRoom host (before ++ (after ++ [event]))) {q : SyncWorld σ}
    (h : w.Waits host before after q.gate waiter) :
    w.Waits host before (after ++ [event]) (q.next event).gate waiter where
  agrees := by
    rw [← List.append_assoc, run_concat]
    apply agrees_next h.agrees
    intro connection hclosed
    rw [← List.append_assoc] at hroom
    exact not_mem_opened_of_isClosed hnew hroom.opened_lt hclosed
  waiter_eq := h.waiter_eq
  unobserved_eq hnone := by
    have hsublist := unobserved_append_sublist hnew hroom
    rw [h.unobserved_eq hnone] at hsublist
    exact List.eq_nil_of_sublist_nil hsublist

/-- When its time is over, a drain tells what is unobserved. -/
theorem endDrain_fst (h : w.Waits host before after g waiter) (hnew : w.gate.IsNew)
    (hroom : w.HasRoom host (before ++ after)) (m : Metrics) :
    (g.endDrain m waiter).1 = outcomeOf (w.unobserved host before after) := by
  cases waiter with
  | none =>
      rw [h.unobserved_eq rfl]
      rfl
  | some v =>
      obtain rfl := h.waiter_eq v rfl
      rw [Gate.endDrain, Gate.expireDrain_fst]
      simp only [pendingThrough_eq hnew hroom h.agrees]
      rfl

end Waits

theorem waitBeside_eq (hnew : w.gate.IsNew) {after : List SyncEvent}
    {steps : List (SyncEvent × List HostId)} {q : SyncWorld σ} {waiter : Option Waiter}
    (hroom : w.HasRoom host (before ++ (after ++ steps.map Prod.fst)))
    (h : w.Waits host before after q.gate waiter) :
    q.waitBeside waiter steps =
      outcomeOf (w.unobserved host before (after ++ steps.map Prod.fst)) := by
  induction steps generalizing after q waiter with
  | nil =>
      rw [List.map_nil, List.append_nil] at hroom ⊢
      exact h.endDrain_fst hnew hroom q.metrics
  | cons step rest ih =>
      obtain ⟨event, woken⟩ := step
      -- the invariant passes over the event and then over the look that may follow it
      have hsplit : after ++ ((event, woken) :: rest).map Prod.fst =
          after ++ [event] ++ rest.map Prod.fst := by simp
      rw [hsplit] at hroom ⊢
      have hnext : w.HasRoom host (before ++ (after ++ [event])) := by
        rw [← List.append_assoc] at hroom
        exact hroom.of_append
      exact ih hroom ((h.next hnew hnext).wake hnew hnext _ woken)

theorem drainBeside_eq_outcomeOf (hnew : w.gate.IsNew) {steps : List (SyncEvent × List HostId)}
    (hroom : w.HasRoom host (before ++ steps.map Prod.fst)) :
    (w.run before).drainBeside host steps =
      outcomeOf (w.unobserved host before (steps.map Prod.fst)) := by
  have hbegin := Waits.of_beginDrain hnew hroom.of_append (w.run before).metrics
  rw [← List.nil_append (steps.map Prod.fst)] at hroom ⊢
  exact waitBeside_eq hnew hroom (q := { w.run before with gate := _, metrics := _ }) hbegin

/-- How a drain ends, whatever happens while it waits: it has drained exactly if none of the tickets
issued for its host before the call is left unobserved by the other events, and else it times
out and tells how many are left. When its waiter looks makes no difference, and what is
observed after some of the events is observed after all of them. -/
theorem drainBeside_eq (hnew : w.gate.IsNew) {steps : List (SyncEvent × List HostId)}
    (hroom : w.HasRoom host (before ++ steps.map Prod.fst)) :
    (w.run before).drainBeside host steps =
        (if (w.unobserved host before (steps.map Prod.fst)).length = 0 then .drained
          else .timedOut (w.unobserved host before (steps.map Prod.fst)).length) ∧
      ∀ earlier later, steps.map Prod.fst = earlier ++ later →
        (w.unobserved host before (steps.map Prod.fst)).Sublist
          (w.unobserved host before earlier) := by
  constructor
  · exact drainBeside_eq_outcomeOf hnew hroom
  · intro earlier later hsteps
    rw [hsteps] at hroom ⊢
    exact unobserved_append_sublist hnew hroom

/-- Two tickets were issued before the call. The first is completed under a made-up name and its
connection is closed; nothing happens to the second, and a third comes too late to matter. -/
def issuedBefore : List SyncEvent :=
  [.step .openConnection, .step .openConnection, .step (.beginWait ⟨1⟩ ⟨1⟩),
    .step (.beginWait ⟨1⟩ ⟨2⟩), .step (.advance ⟨1⟩)]

/-- The events while the drain waits, with the lanes that are woken after each. -/
def whileWaiting : List (SyncEvent × List HostId) :=
  [(.step (.complete ⟨⟨1⟩, 1, ⟨9⟩⟩), [⟨1⟩]), (.step (.beginWait ⟨1⟩ ⟨1⟩), [⟨1⟩]),
    (.step (.closeConnection ⟨1⟩), []), (.step (.drain ⟨1⟩), [⟨1⟩]), (.step (.advance ⟨2⟩), [])]

theorem drainBeside_eq_of_whileWaiting :
    loneGate.gate.IsNew ∧
      loneGate.HasRoom ⟨1⟩ (issuedBefore ++ whileWaiting.map Prod.fst) ∧
      loneGate.unobserved ⟨1⟩ issuedBefore (whileWaiting.map Prod.fst) = [⟨⟨1⟩, 2, ⟨2⟩⟩] ∧
      (loneGate.run issuedBefore).drainBeside ⟨1⟩ whileWaiting = .timedOut 1 := by
  have hnew : loneGate.gate.IsNew := ⟨rfl, rfl, rfl⟩
  have hroom : loneGate.HasRoom ⟨1⟩ (issuedBefore ++ whileWaiting.map Prod.fst) :=
    ⟨by decide +kernel, by decide +kernel⟩
  have hleft : loneGate.unobserved ⟨1⟩ issuedBefore (whileWaiting.map Prod.fst) =
      [⟨⟨1⟩, 2, ⟨2⟩⟩] := by decide +kernel
  have houtcome := (drainBeside_eq hnew hroom).1
  rw [hleft] at houtcome
  exact ⟨hnew, hroom, hleft, houtcome⟩

/-! ## The steps of a gate -/

/-- How a waiting drain ends that looks exactly when a step wakes its lane. -/
def waitWhile (g : Gate) (m : Metrics) (waiter : Option Waiter) : List GateStep → DrainOutcome
  | [] => (g.endDrain m waiter).1
  | step :: steps =>
      let ((_, waiter), g, m) := step.performBeside g m waiter
      waitWhile g m waiter steps

theorem exists_waitBeside_eq_waitWhile (q : SyncWorld σ) (waiter : Option Waiter)
    (steps : List GateStep) :
    ∃ schedule : List (SyncEvent × List HostId), schedule.map Prod.fst = steps.map .step ∧
      q.waitBeside waiter schedule = waitWhile q.gate q.metrics waiter steps := by
  induction steps generalizing q waiter with
  | nil => exact ⟨[], rfl, rfl⟩
  | cons step steps ih =>
      obtain ⟨schedule, hsteps, heq⟩ := ih
        { q.next (.step step) with
          gate := (step.performBeside q.gate q.metrics waiter).2.1
          metrics := (step.performBeside q.gate q.metrics waiter).2.2 }
        (step.performBeside q.gate q.metrics waiter).1.2
      exact ⟨(.step step, step.wakes q.gate) :: schedule, by rw [List.map_cons, hsteps]; rfl, heq⟩

/-- The steps of a gate wake a waiting drain often enough. -/
theorem waitWhile_eq (hnew : w.gate.IsNew) {steps : List GateStep}
    (hroom : w.HasRoom host (before ++ steps.map .step)) :
    let (waiter, g, m) := (w.run before).gate.beginDrain (w.run before).metrics host
    waitWhile g m waiter steps = outcomeOf (w.unobserved host before (steps.map .step)) := by
  obtain ⟨schedule, hsteps, heq⟩ := exists_waitBeside_eq_waitWhile
    { w.run before with
      gate := ((w.run before).gate.beginDrain (w.run before).metrics host).2.1
      metrics := ((w.run before).gate.beginDrain (w.run before).metrics host).2.2 }
    ((w.run before).gate.beginDrain (w.run before).metrics host).1 steps
  rw [← hsteps] at hroom ⊢
  exact heq.symm.trans (drainBeside_eq_outcomeOf hnew hroom)

end SyncWorld

end ControlPlane
