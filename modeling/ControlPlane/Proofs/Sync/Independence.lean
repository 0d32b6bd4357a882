/-
# Hosts are independent

Two steps on the lanes of different hosts can be exchanged: each answers what it would have
answered alone, and the gate they leave is the same, with the notes of a connection that both
touch. The metrics are the same as well, because the gauge of outstanding tickets holds at least
one for every ticket that is outstanding on any host, as long as it has not wrapped around.

What is seen of a host along a run therefore depends on the events that concern it: those on its
lane, and those on no lane in particular, which open and close connections and announce changes.
Runs that have the same of these show the same of the host.
-/

import ControlPlane.Proofs.Sync.LaneSteps
import ControlPlane.Proofs.Sync.Connections
import Mathlib.Algebra.Order.BigOperators.Group.Finset

namespace ControlPlane

open Std (ExtTreeMap)

namespace SyncWorld

variable {σ : Type} (w : SyncWorld σ)

/-- What a step answers. -/
def reply (step : GateStep) : GateReply :=
  (step.perform w.gate w.metrics).1

/-! ## Steps that are exchanged -/

theorem reply_on (host : HostId) (step : LaneStep) :
    w.reply (step.on host) = (step.effect w.gate host).reply := by
  rw [reply, step.perform_on]

theorem gate_next_on (host : HostId) (step : LaneStep) :
    (w.next (.step (step.on host))).gate = (step.effect w.gate host).onGate host w.gate := by
  rw [next, step.perform_on]

theorem metrics_next_on (host : HostId) (step : LaneStep) :
    (w.next (.step (step.on host))).metrics =
      w.gate.meter w.metrics (·.record (step.effect w.gate host)) := by
  rw [next, step.perform_on]

section

variable {host host' : HostId} (hne : host ≠ host') (step step' : LaneStep)
include hne

/-- A step answers what it would have answered before a step on another host. -/
theorem reply_next_on :
    (w.next (.step (step'.on host'))).reply (step.on host) = w.reply (step.on host) := by
  rw [reply_on, reply_on, gate_next_on, step.effect_onGate hne]

/-- The gate is the same in either order. -/
theorem gate_next_on_comm :
    ((w.next (.step (step.on host))).next (.step (step'.on host'))).gate =
      ((w.next (.step (step'.on host'))).next (.step (step.on host))).gate := by
  simp only [gate_next_on, step.effect_onGate hne, step'.effect_onGate hne.symm]
  exact LaneEffect.onGate_comm _ _ _ hne

/-- The metrics are the same in either order if the gauge holds what is outstanding. -/
theorem metrics_next_on_comm
    (hheld : w.gate.isMetered = true → ∀ host, w.gate.outstanding host ≤
      (w.metrics.gauge Metrics.syncOutstandingTickets).toNat)
    (hroom : w.gate.isMetered = true →
      (w.metrics.gauge Metrics.syncOutstandingTickets).toNat + 1 < UInt64.size) :
    ((w.next (.step (step.on host))).next (.step (step'.on host'))).metrics =
      ((w.next (.step (step'.on host'))).next (.step (step.on host))).metrics := by
  have hmeter (effect : LaneEffect) (host : HostId) (m : Metrics) (change : Metrics → Metrics) :
      (effect.onGate host w.gate).meter m change = w.gate.meter m change := rfl
  simp only [metrics_next_on, gate_next_on, hmeter, step.effect_onGate hne,
    step'.effect_onGate hne.symm]
  by_cases hmetered : w.gate.isMetered = true
  · simp only [Gate.meter_eq _ hmetered]
    apply Metrics.record_comm
    · intro taken htaken
      exact (step.taken_le_outstanding w.gate host htaken).trans (hheld hmetered host)
    · intro taken htaken
      exact (step'.taken_le_outstanding w.gate host' htaken).trans (hheld hmetered host')
    · exact hroom hmetered
  · simp only [Gate.meter, if_neg hmetered]

end

/-! ## What the gauge holds -/

/-- What is outstanding on a host after an event, and what the event released there, was
outstanding before or was issued by it. -/
theorem outstanding_next_le (event : SyncEvent) (host : HostId) :
    (w.next event).gate.outstanding host +
        ((w.released event).filter fun key => key.1 = host).length ≤
      w.gate.outstanding host +
        ((w.tickets event).filter fun ticket => ticket.host = host).length := by
  induction event using SyncEvent.byEffect with
  | opened => exact Nat.le_refl _
  | closed connection => exact Nat.le_refl _
  | issued other connection =>
      rw [tickets_issue, gate_next_issue]
      simp only [Gate.outstanding, Gate.lane_beginWait]
      by_cases heq : other = host
      · simpa [heq, released, completions, drops, SyncEvent.drained?] using
          ExtTreeMap.size_insert_le
      · simp [heq, released, completions, drops, SyncEvent.drained?]
  | completed ticket =>
      have htickets : w.tickets (.step (.complete ticket)) = [] := rfl
      rw [released_complete, gate_next_complete, htickets]
      simp only [Gate.outstanding, Gate.lane_complete]
      by_cases heq : ticket.host = host
      · subst heq
        have hsize := size_erase_add (w.gate.lane ticket.host).outstanding ticket.sequence
        change _ + (if (w.gate.owner? ticket.host ticket.sequence).isSome then 1 else 0) = _
          at hsize
        cases hheld : (w.gate.owner? ticket.host ticket.sequence).isSome with
        | true => simpa [hheld] using hsize.le
        | false => simpa [hheld] using hsize.le
      · cases (w.gate.owner? ticket.host ticket.sequence).isSome <;> simp [heq]
  | advanced other =>
      rw [gate_next_advance]
      simp only [Gate.outstanding, Gate.lane_advance]
      by_cases heq : other = host <;> simp [heq, released, completions, drops, SyncEvent.drained?]
  | announced event =>
      rw [gate_next_announce]
      simp only [Gate.outstanding, Gate.lane_advanceAll _ (nodup_toList_set event.affectedHosts)]
      split <;> simp [released, completions, drops, SyncEvent.drained?]
  | drained event other h =>
      rw [w.released_of_drained h, w.tickets_of_drained h, w.gate_next_of_drained h]
      by_cases heq : other = host
      · subst heq
        simpa [List.filter_map, Function.comp_def] using
          (w.gate.outstanding_releaseClosed w.metrics other).le
      · simp [Gate.outstanding, Gate.lane_releaseClosed, heq, List.filter_map, Function.comp_def]

theorem sum_outstanding_next_le (event : SyncEvent) :
    ∑ host, (w.next event).gate.outstanding host + (w.released event).length ≤
      ∑ host, w.gate.outstanding host + (w.tickets event).length := by
  rw [← sum_length_filter Prod.fst, ← sum_length_filter SyncTicket.host, ← Finset.sum_add_distrib,
    ← Finset.sum_add_distrib]
  exact Finset.sum_le_sum fun host _ => w.outstanding_next_le event host

section

variable {w} {events : List SyncEvent} (hnew : w.gate.IsNew) (hmetered : w.gate.isMetered = true)
  (hgauge : w.metrics.gauge Metrics.syncOutstandingTickets = 0)
  (hissued : (w.collect tickets events).length < UInt64.size)
include hnew hmetered hgauge hissued

/-- As long as the gauge does not wrap around, it holds what is outstanding on all hosts together.
It may hold more, when the numbers of a host wrapped around and a ticket was written over. -/
theorem sum_outstanding_le_gauge :
    ∑ host, (w.run events).gate.outstanding host ≤
        ((w.run events).metrics.gauge Metrics.syncOutstandingTickets).toNat ∧
      ((w.run events).metrics.gauge Metrics.syncOutstandingTickets).toNat ≤
        (w.collect tickets events).length := by
  induction events using List.reverseRecOn with
  | nil =>
      have hnone (host : HostId) : w.gate.outstanding host = 0 := by
        rw [Gate.outstanding, lane_of_isNew hnew]
        rfl
      simp [hnone, hgauge]
  | append_singleton events event ih =>
      obtain ⟨hheld, hbound⟩ := ih (w.length_collect_lt_of_append hissued)
      have hmetered' : (w.run events).gate.isMetered = true :=
        (w.isMetered_run events).trans hmetered
      have hsum := (w.run events).sum_outstanding_next_le event
      rw [collect_concat, List.length_append] at hissued ⊢
      rw [run_concat]
      by_cases htickets : (w.run events).tickets event = []
      · have hrelease := release_next hmetered' htickets
        rw [hrelease.gauge_eq]
        rw [htickets, List.length_nil] at hsum
        omega
      · obtain ⟨ticket, hmem⟩ := List.exists_mem_of_ne_nil _ htickets
        obtain rfl := eq_of_mem_tickets_event _ hmem
        rw [tickets_issue, List.length_singleton] at hissued hsum ⊢
        rw [metrics_issue hmetered', Metrics.gauge_raise_self, Metrics.gauge_count,
          UInt64.toNat_add, UInt64.toNat_one]
        simp only [UInt64.size] at hissued
        omega

theorem outstanding_le_gauge (host : HostId) :
    (w.run events).gate.outstanding host ≤
      ((w.run events).metrics.gauge Metrics.syncOutstandingTickets).toNat :=
  (Finset.single_le_sum (fun _ _ => Nat.zero_le _) (Finset.mem_univ host)).trans
    (sum_outstanding_le_gauge hnew hmetered hgauge hissued).1

end

end SyncWorld

/-! ## What concerns a host -/

/-- The host on whose lane an event is. -/
def SyncEvent.host? : SyncEvent → Option HostId
  | step (.beginWait host _) | step (.advance host) => some host
  | step (.complete ticket) => some ticket.host
  | event => event.drained?

@[simp]
theorem SyncEvent.host?_on (host : HostId) (step : LaneStep) :
    (SyncEvent.step (step.on host)).host? = some host := by
  cases step <;> rfl

theorem SyncEvent.host?_of_drained {event : SyncEvent} {host : HostId}
    (h : event.drained? = some host) : event.host? = some host := by
  unfold host?
  split
  · cases h
  · cases h
  · cases h
  · exact h

/-- Whether an event is on the lane of a host or on no lane in particular. -/
def SyncEvent.concerns (host : HostId) (event : SyncEvent) : Bool :=
  event.host?.all fun other => other = host

/-- What an event answers that concerns a host. -/
inductive HostReport
  | replied (reply : GateReply)
  /-- The number that an announcement uses up. -/
  | announced (sequence : UInt64)
  | began (waiter : Option Waiter)
  /-- How many tickets a waiter still waits for. -/
  | left (pending : Nat)
  | ended (outcome : DrainOutcome)
deriving DecidableEq

/-- Gates that agree on one host and on the connections, but for what these note of others. -/
structure Gate.AgreesOn (host : HostId) (g g' : Gate) : Prop where
  lane_eq : g.lane host = g'.lane host
  nextConnection_eq : g.nextConnection = g'.nextConnection
  mem_iff : ∀ connection, connection ∈ g.connections ↔ connection ∈ g'.connections
  isClosed_eq : ∀ connection, g.isClosed connection = g'.isClosed connection

namespace Gate.AgreesOn

variable {host : HostId} {g g' g'' : Gate}

theorem refl (host : HostId) (g : Gate) : g.AgreesOn host g :=
  ⟨rfl, rfl, fun _ => Iff.rfl, fun _ => rfl⟩

theorem trans (h : g.AgreesOn host g') (h' : g'.AgreesOn host g'') : g.AgreesOn host g'' where
  lane_eq := h.lane_eq.trans h'.lane_eq
  nextConnection_eq := h.nextConnection_eq.trans h'.nextConnection_eq
  mem_iff connection := (h.mem_iff connection).trans (h'.mem_iff connection)
  isClosed_eq connection := (h.isClosed_eq connection).trans (h'.isClosed_eq connection)

theorem lastIssued_eq (h : g.AgreesOn host g') : g.lastIssued host = g'.lastIssued host :=
  congrArg Lane.lastIssued h.lane_eq

theorem outstanding_eq (h : g.AgreesOn host g') : g.outstanding host = g'.outstanding host :=
  congrArg (fun lane => lane.outstanding.size) h.lane_eq

theorem keptLane_eq (h : g.AgreesOn host g') : g.keptLane host = g'.keptLane host := by
  simp only [keptLane, h.lane_eq, h.isClosed_eq]

theorem pendingOn_eq (h : g.AgreesOn host g') (snapshot : UInt64) :
    g.pendingOn host snapshot = g'.pendingOn host snapshot := by
  rw [pendingOn, h.keptLane_eq, pendingOn]

theorem reply_eq (h : g.AgreesOn host g') (step : LaneStep) :
    (step.effect g host).reply = (step.effect g' host).reply := by
  cases step with
  | beginWait connection => simp only [LaneStep.effect, h.lastIssued_eq]
  | complete sequence connection =>
      have howner : g.owner? host sequence = g'.owner? host sequence := by
        rw [owner?, h.lane_eq, owner?]
      simp only [LaneStep.effect, howner]
      split <;> rfl
  | advance => simp only [LaneStep.effect, h.lastIssued_eq]
  | drain => simp only [LaneStep.effect, h.pendingOn_eq, h.lastIssued_eq]

end Gate.AgreesOn

namespace SyncWorld

variable {σ : Type} {host : HostId}

/-- What is seen of a host. -/
def reports (host : HostId) (w : SyncWorld σ) (event : SyncEvent) : List HostReport :=
  if event.concerns host then
    match event with
    | .step step => [.replied (w.reply step)]
    | .announce event =>
        ((announceTo w.rules w.targets event w.caches w.gate).1.hostSequences[host]?.map
          HostReport.announced).toList
    | .beginDrain other => [.began (w.gate.beginDrain w.metrics other).1]
    | .look waiter => [.left (w.gate.reevaluate w.metrics waiter).1]
    | .expire waiter => [.ended (w.gate.expireDrain w.metrics waiter).1]
  else []

section

variable {p q : SyncWorld σ} (h : p.gate.AgreesOn host q.gate)
include h

/-- What becomes of a lane depends on the lane and on which connections are closed. -/
theorem lane_next_eq_of_agreesOn (event : SyncEvent) :
    (p.next event).gate.lane host = (q.next event).gate.lane host := by
  induction event using SyncEvent.byEffect with
  | opened => exact h.lane_eq
  | closed connection => exact h.lane_eq
  | issued other connection =>
      simp only [gate_next_issue, Gate.lane_beginWait, h.lastIssued_eq, h.lane_eq]
  | completed ticket => simp only [gate_next_complete, Gate.lane_complete, h.lane_eq]
  | advanced other =>
      simp only [gate_next_advance, Gate.lane_advance, h.lastIssued_eq, h.lane_eq]
  | announced event =>
      simp only [gate_next_announce, Gate.lane_advanceAll _ (nodup_toList_set event.affectedHosts),
        h.lastIssued_eq, h.lane_eq]
  | drained event other hdrained =>
      simp only [gate_next_of_drained _ hdrained, Gate.lane_releaseClosed, h.isClosed_eq,
        h.lane_eq]

theorem isClosed_next_eq_of_agreesOn (event : SyncEvent) (connection : ConnectionId) :
    (p.next event).gate.isClosed connection = (q.next event).gate.isClosed connection := by
  induction event using SyncEvent.byEffect with
  | opened =>
      simp only [gate_next_open, Gate.isClosed_openConnection, h.nextConnection_eq, h.isClosed_eq]
  | closed other =>
      have hknown : p.gate.connections.contains connection =
          q.gate.connections.contains connection := by
        rw [Bool.eq_iff_iff, ExtTreeMap.contains_iff_mem, ExtTreeMap.contains_iff_mem]
        exact h.mem_iff connection
      simp only [gate_next_close, Gate.isClosed_closeConnection, h.isClosed_eq, hknown]
  | issued other connection => simpa using h.isClosed_eq _
  | completed ticket => simpa using h.isClosed_eq _
  | advanced other => simpa using h.isClosed_eq _
  | announced event => simpa using h.isClosed_eq _
  | drained event other hdrained =>
      simpa [gate_next_of_drained _ hdrained] using h.isClosed_eq _

/-- Gates that agree on a host keep agreeing whatever happens to both. -/
theorem agreesOn_next (event : SyncEvent) :
    (p.next event).gate.AgreesOn host (q.next event).gate where
  lane_eq := lane_next_eq_of_agreesOn h event
  nextConnection_eq := by
    rw [nextConnection_next, nextConnection_next, h.nextConnection_eq,
      opened_eq_of_nextConnection_eq h.nextConnection_eq]
  mem_iff connection := by
    rw [mem_connections_next_iff, mem_connections_next_iff, h.mem_iff,
      opened_eq_of_nextConnection_eq h.nextConnection_eq]
  isClosed_eq := isClosed_next_eq_of_agreesOn h event

/-- Gates that agree on a host answer the same to what concerns it. -/
theorem reports_eq_of_agreesOn (event : SyncEvent) :
    reports host p event = reports host q event := by
  unfold reports
  split
  · next hconcerns =>
    cases event with
    | step step =>
        refine congrArg (fun reply => [HostReport.replied reply]) ?_
        induction step using GateStep.byLane with
        | opened =>
            change GateReply.opened ⟨p.gate.nextConnection⟩ = .opened ⟨q.gate.nextConnection⟩
            rw [h.nextConnection_eq]
        | closed connection => rfl
        | on other step =>
            obtain rfl : other = host := by simpa [SyncEvent.concerns] using hconcerns
            rw [reply_on, reply_on, h.reply_eq]
    | announce event => simp only [hostSequences_announceTo, h.lastIssued_eq]
    | beginDrain other =>
        obtain rfl : other = host := of_decide_eq_true hconcerns
        simp only [Gate.beginDrain_fst, Gate.lane_releaseClosed_self, h.keptLane_eq,
          h.lastIssued_eq]
    | look waiter =>
        obtain rfl : waiter.host = host := of_decide_eq_true hconcerns
        simp only [Gate.reevaluate_eq, h.pendingOn_eq]
    | expire waiter =>
        obtain rfl : waiter.host = host := of_decide_eq_true hconcerns
        simp only [Gate.expireDrain_fst, Gate.lane_releaseClosed_self, h.keptLane_eq]
  · rfl

end

theorem agreesOn_next_of_opened (w : SyncWorld σ) {event : SyncEvent} (hnone : w.opened event = [])
    (hlane : (w.next event).gate.lane host = w.gate.lane host)
    (hclosed : ∀ connection, (w.next event).gate.isClosed connection = w.gate.isClosed connection) :
    (w.next event).gate.AgreesOn host w.gate where
  lane_eq := hlane
  nextConnection_eq := by
    rw [nextConnection_next, hnone]
    exact UInt64.add_zero _
  mem_iff connection := by
    rw [mem_connections_next_iff, hnone]
    simp
  isClosed_eq := hclosed

/-- An event on the lane of another host is not noticed. -/
theorem agreesOn_next_of_not_concerns (w : SyncWorld σ) {event : SyncEvent}
    (h : ¬ event.concerns host = true) : (w.next event).gate.AgreesOn host w.gate := by
  have hother (other : HostId) (hhost : event.host? = some other) : ¬ other = host := by
    intro heq
    rw [SyncEvent.concerns, hhost, heq] at h
    simp at h
  induction event using SyncEvent.byEffect with
  | opened => exact absurd rfl h
  | closed connection => exact absurd rfl h
  | issued other connection =>
      apply w.agreesOn_next_of_opened rfl
      · rw [gate_next_issue, Gate.lane_beginWait, if_neg (hother other rfl)]
      · simp
  | completed ticket =>
      apply w.agreesOn_next_of_opened rfl
      · rw [gate_next_complete, Gate.lane_complete, if_neg (hother ticket.host rfl)]
      · simp
  | advanced other =>
      apply w.agreesOn_next_of_opened rfl
      · rw [gate_next_advance, Gate.lane_advance, if_neg (hother other rfl)]
      · simp
  | announced event => exact absurd rfl h
  | drained event other hdrained =>
      apply w.agreesOn_next_of_opened (w.opened_of_drained hdrained)
      · have hne := hother other (SyncEvent.host?_of_drained hdrained)
        rw [w.gate_next_of_drained hdrained, Gate.lane_releaseClosed, if_neg hne]
      · simp [w.gate_next_of_drained hdrained]

/-! ## Runs -/

/-- What is seen of a host, and what is left there, is known from the events that concern it. -/
theorem collect_reports_filter {p q : SyncWorld σ} (h : p.gate.AgreesOn host q.gate)
    (events : List SyncEvent) :
    p.collect (reports host) events =
        q.collect (reports host) (events.filter (SyncEvent.concerns host)) ∧
      (p.run events).gate.AgreesOn host
        (q.run (events.filter (SyncEvent.concerns host))).gate := by
  induction events generalizing p q with
  | nil => exact ⟨rfl, h⟩
  | cons event events ih =>
      by_cases hconcerns : event.concerns host = true
      · obtain ⟨hreports, hagrees⟩ := ih (agreesOn_next h event)
        rw [List.filter_cons_of_pos hconcerns, collect, collect, hreports,
          reports_eq_of_agreesOn h]
        exact ⟨rfl, hagrees⟩
      · have hnone : reports host p event = [] := if_neg hconcerns
        obtain ⟨hreports, hagrees⟩ := ih ((p.agreesOn_next_of_not_concerns hconcerns).trans h)
        rw [List.filter_cons_of_neg hconcerns, collect, hreports, hnone]
        exact ⟨rfl, hagrees⟩

/-- Whatever was done with a gate, two steps on the lanes of different hosts can be exchanged: each
answers what it would have answered alone, and the gate and the metrics are left the same. The
gauge of outstanding tickets must not wrap around for this, because it stops at zero. Hence what is
seen of a host along a run, and what is outstanding there and was issued last, is the same along
any run in which other things happen on the lanes of other hosts. -/
theorem hosts_independent {w : SyncWorld σ} (hnew : w.gate.IsNew)
    (hgauge : w.metrics.gauge Metrics.syncOutstandingTickets = 0) {host host' : HostId}
    (hne : host ≠ host') (step step' : LaneStep) (events : List SyncEvent) :
    ((w.run events).next (.step (step.on host))).reply (step'.on host') =
        (w.run events).reply (step'.on host') ∧
      ((w.run events).next (.step (step'.on host'))).reply (step.on host) =
        (w.run events).reply (step.on host) ∧
      (((w.run events).next (.step (step.on host))).next (.step (step'.on host'))).gate =
        (((w.run events).next (.step (step'.on host'))).next (.step (step.on host))).gate ∧
      ((w.collect tickets events).length + 1 < UInt64.size →
        (((w.run events).next (.step (step.on host))).next (.step (step'.on host'))).metrics =
          (((w.run events).next (.step (step'.on host'))).next (.step (step.on host))).metrics) ∧
      ∀ events' : List SyncEvent,
        events'.filter (SyncEvent.concerns host) = events.filter (SyncEvent.concerns host) →
        w.collect (reports host) events' = w.collect (reports host) events ∧
          (w.run events').gate.outstanding host = (w.run events).gate.outstanding host ∧
          (w.run events').gate.lastIssued host = (w.run events).gate.lastIssued host := by
  refine ⟨reply_next_on _ hne.symm step' step, reply_next_on _ hne step step',
    gate_next_on_comm _ hne step step', ?_, ?_⟩
  · intro hissued
    have hfits : (w.collect tickets events).length < UInt64.size := by omega
    apply metrics_next_on_comm _ hne
    · intro hmetered
      exact outstanding_le_gauge hnew (w.isMetered_run events ▸ hmetered) hgauge hfits
    · intro hmetered
      have hbound := (sum_outstanding_le_gauge hnew (w.isMetered_run events ▸ hmetered) hgauge
        hfits).2
      omega
  · intro events' hsame
    obtain ⟨hreports, hagrees⟩ := collect_reports_filter (.refl host w.gate) events
    obtain ⟨hreports', hagrees'⟩ := collect_reports_filter (.refl host w.gate) events'
    rw [hsame] at hreports' hagrees'
    refine ⟨hreports'.trans hreports.symm, ?_, ?_⟩
    · exact hagrees'.outstanding_eq.trans hagrees.outstanding_eq.symm
    · exact hagrees'.lastIssued_eq.trans hagrees.lastIssued_eq.symm

/-- A connection holds tickets on two hosts when it is closed, and another one on one of them. -/
def sharedRun : List SyncEvent :=
  [.step .openConnection, .step .openConnection, .step (.beginWait ⟨1⟩ ⟨1⟩),
    .step (.beginWait ⟨2⟩ ⟨1⟩), .step (.beginWait ⟨2⟩ ⟨2⟩), .step (.closeConnection ⟨1⟩),
    .step (.drain ⟨1⟩)]

/-- What concerns the second host. -/
def sharedRunOfSecond : List SyncEvent :=
  [.step .openConnection, .step .openConnection, .step (.beginWait ⟨2⟩ ⟨1⟩),
    .step (.beginWait ⟨2⟩ ⟨2⟩), .step (.closeConnection ⟨1⟩)]

theorem hosts_independent_of_sharedRun :
    loneGate.gate.IsNew ∧ loneGate.metrics.gauge Metrics.syncOutstandingTickets = 0 ∧
      (⟨2⟩ : HostId) ≠ ⟨1⟩ ∧ (loneGate.collect tickets sharedRun).length = 3 ∧
      ((loneGate.run sharedRun).next (.step (.beginWait ⟨1⟩ ⟨2⟩))).reply (.drain ⟨2⟩) =
        .drainEnded (.timedOut 1) ∧
      (((loneGate.run sharedRun).next (.step (.drain ⟨2⟩))).next
          (.step (.beginWait ⟨1⟩ ⟨2⟩))).metrics =
        (((loneGate.run sharedRun).next (.step (.beginWait ⟨1⟩ ⟨2⟩))).next
          (.step (.drain ⟨2⟩))).metrics ∧
      loneGate.collect (reports ⟨2⟩) sharedRunOfSecond =
        loneGate.collect (reports ⟨2⟩) sharedRun := by
  have hnew : loneGate.gate.IsNew := ⟨rfl, rfl, rfl⟩
  have hne : (⟨2⟩ : HostId) ≠ ⟨1⟩ := by decide
  have hlength : (loneGate.collect tickets sharedRun).length = 3 := by decide +kernel
  have hissued : (loneGate.collect tickets sharedRun).length + 1 < UInt64.size := by
    rw [hlength]
    decide
  obtain ⟨-, hreply, -, hmetrics, hruns⟩ :=
    hosts_independent hnew rfl hne .drain (.beginWait ⟨2⟩) sharedRun
  have hdrain : (loneGate.run sharedRun).reply (.drain ⟨2⟩) = .drainEnded (.timedOut 1) := by
    decide +kernel
  have hsame : sharedRunOfSecond.filter (SyncEvent.concerns ⟨2⟩) =
      sharedRun.filter (SyncEvent.concerns ⟨2⟩) := rfl
  obtain ⟨hreports, -, -⟩ := hruns sharedRunOfSecond hsame
  exact ⟨hnew, rfl, hne, hlength, hreply.trans hdrain, hmetrics hissued, hreports⟩

end SyncWorld

end ControlPlane
