/-
# Runs of a gate

A gate never works for one caller alone: connections come and go, tickets are issued and
completed, changes are announced, and any number of drains are somewhere in their waiting. A
`SyncEvent` is one of these things and a run is any list of them. A drain during which nothing
else happens is one event. One that has to wait is its beginning, then any number of looks of
its waiter, then the end of its time, with other events in between.

What a run shows to its callers is read off it in logs, which `collect` gathers event by
event: the numbers handed out, the tickets completed and dropped, the connections opened.
-/

import ControlPlane.Proofs.Sync.Lanes
import ControlPlane.Sync.Broadcast
import Mathlib.Data.List.Induction

namespace ControlPlane

theorem nodup_toList_set {κ : Type} [Ord κ] [Std.TransOrd κ] [Std.LawfulEqOrd κ]
    (items : Std.ExtTreeSet κ) : items.toList.Nodup :=
  Std.ExtTreeSet.distinct_toList.imp fun hne heq =>
    hne (Std.LawfulEqOrd.compare_eq_iff_eq.mpr heq)

variable {σ : Type}

/-- Something that happens to a gate. -/
inductive SyncEvent
  | step (step : GateStep)
  | announce (event : InvalidationEvent)
  | beginDrain (host : HostId)
  /-- A waiter looks again, whatever woke it. -/
  | look (waiter : Waiter)
  /-- The time of a waiter is over. -/
  | expire (waiter : Waiter)

namespace SyncEvent

/-- The host that an event drains. -/
def drained? : SyncEvent → Option HostId
  | step (.drain host) | beginDrain host => some host
  | look waiter | expire waiter => some waiter.host
  | _ => none

/-- Events by what they do to a gate: all events of drains are one case. -/
@[elab_as_elim]
theorem byEffect {motive : SyncEvent → Prop}
    (opened : motive (step .openConnection))
    (closed : ∀ connection, motive (step (.closeConnection connection)))
    (issued : ∀ host connection, motive (step (.beginWait host connection)))
    (completed : ∀ ticket, motive (step (.complete ticket)))
    (advanced : ∀ host, motive (step (.advance host)))
    (announced : ∀ event, motive (announce event))
    (drained : ∀ event host, event.drained? = some host → motive event)
    (event : SyncEvent) : motive event := by
  cases event with
  | step step =>
      cases step with
      | openConnection => exact opened
      | closeConnection connection => exact closed connection
      | beginWait host connection => exact issued host connection
      | complete ticket => exact completed ticket
      | advance host => exact advanced host
      | drain host => exact drained _ host rfl
  | announce event => exact announced event
  | beginDrain host => exact drained _ host rfl
  | look waiter => exact drained _ waiter.host rfl
  | expire waiter => exact drained _ waiter.host rfl

end SyncEvent

/-- A gate, its metrics and what announcements to it reach. -/
structure SyncWorld (σ : Type) where
  rules : InvalidationRules
  targets : List (InvalidationTarget σ)
  caches : σ
  gate : Gate := {}
  metrics : Metrics := {}

namespace SyncWorld

variable (w : SyncWorld σ)

/-- The world after an event; what the event answers is in the logs. -/
def next : SyncEvent → SyncWorld σ
  | .step step =>
      let (_, gate, metrics) := step.perform w.gate w.metrics
      { w with gate, metrics }
  | .announce event =>
      let (_, caches, gate) := announceTo w.rules w.targets event w.caches w.gate
      { w with caches, gate }
  | .beginDrain host =>
      let (_, gate, metrics) := w.gate.beginDrain w.metrics host
      { w with gate, metrics }
  | .look waiter =>
      let (_, gate, metrics) := w.gate.reevaluate w.metrics waiter
      { w with gate, metrics }
  | .expire waiter =>
      let (_, gate, metrics) := w.gate.expireDrain w.metrics waiter
      { w with gate, metrics }

def run (events : List SyncEvent) : SyncWorld σ :=
  events.foldl next w

@[simp]
theorem run_nil : w.run [] = w := rfl

@[simp]
theorem run_cons (event : SyncEvent) (events : List SyncEvent) :
    w.run (event :: events) = (w.next event).run events := rfl

@[simp]
theorem run_append (events events' : List SyncEvent) :
    w.run (events ++ events') = (w.run events).run events' :=
  List.foldl_append

theorem run_concat (events : List SyncEvent) (event : SyncEvent) :
    w.run (events ++ [event]) = (w.run events).next event := by
  simp

/-! ## The gate after an event -/

@[simp]
theorem gate_next_open : (w.next (.step .openConnection)).gate = w.gate.openConnection.2 := rfl

@[simp]
theorem gate_next_close (connection : ConnectionId) :
    (w.next (.step (.closeConnection connection))).gate = w.gate.closeConnection connection := rfl

@[simp]
theorem gate_next_issue (host : HostId) (connection : ConnectionId) :
    (w.next (.step (.beginWait host connection))).gate =
      (w.gate.beginWait w.metrics host connection).2.1 := rfl

@[simp]
theorem gate_next_complete (ticket : SyncTicket) :
    (w.next (.step (.complete ticket))).gate = (w.gate.complete w.metrics ticket).2.1 := rfl

@[simp]
theorem gate_next_advance (host : HostId) :
    (w.next (.step (.advance host))).gate = (w.gate.advance host).2 := rfl

@[simp]
theorem gate_next_announce (event : InvalidationEvent) :
    (w.next (.announce event)).gate =
      (w.gate.advanceAll event.affectedHosts.toList).2 := rfl

/-- All that an event of a drain does to the gate is to release tickets of closed
connections. -/
theorem gate_next_of_drained {event : SyncEvent} {host : HostId}
    (h : event.drained? = some host) :
    (w.next event).gate = (w.gate.releaseClosed w.metrics host).1 := by
  cases event with
  | step step =>
      cases step with
      | drain other =>
          obtain rfl : other = host := Option.some.inj h
          exact w.gate.gate_awaitDrain w.metrics other
      | _ => cases h
  | announce event => cases h
  | beginDrain other =>
      obtain rfl : other = host := Option.some.inj h
      exact w.gate.gate_beginDrain w.metrics other
  | look waiter =>
      obtain rfl : waiter.host = host := Option.some.inj h
      rfl
  | expire waiter =>
      obtain rfl : waiter.host = host := Option.some.inj h
      exact w.gate.gate_expireDrain w.metrics waiter

/-! ## Logs -/

/-- What is seen along a run, in order. -/
def collect {β : Type} (w : SyncWorld σ) (see : SyncWorld σ → SyncEvent → List β) :
    List SyncEvent → List β
  | [] => []
  | event :: events => see w event ++ (w.next event).collect see events

theorem collect_append {β : Type} (see : SyncWorld σ → SyncEvent → List β)
    (events events' : List SyncEvent) :
    w.collect see (events ++ events') =
      w.collect see events ++ (w.run events).collect see events' := by
  induction events generalizing w with
  | nil => rfl
  | cons event events ih => simp [collect, ih]

theorem collect_concat {β : Type} (see : SyncWorld σ → SyncEvent → List β)
    (events : List SyncEvent) (event : SyncEvent) :
    w.collect see (events ++ [event]) = w.collect see events ++ see (w.run events) event := by
  simp [collect_append, collect]

/-- What a log has was seen at some event of the run. -/
theorem mem_collect_iff {β : Type} {w : SyncWorld σ} {see : SyncWorld σ → SyncEvent → List β}
    {events : List SyncEvent} {entry : β} :
    entry ∈ w.collect see events ↔
      ∃ earlier event later, events = earlier ++ event :: later
        ∧ entry ∈ see (w.run earlier) event := by
  induction events generalizing w with
  | nil => simp [collect]
  | cons first events ih =>
      rw [collect, List.mem_append, ih]
      constructor
      · rintro (hnow | ⟨earlier, event, later, rfl, hseen⟩)
        · exact ⟨[], first, events, rfl, hnow⟩
        · exact ⟨first :: earlier, event, later, rfl, hseen⟩
      · rintro ⟨_ | ⟨other, earlier⟩, event, later, heq, hseen⟩
        · cases heq
          exact .inl hseen
        · cases heq
          exact .inr ⟨earlier, event, later, rfl, hseen⟩

theorem length_collect_lt_of_append {β : Type} {see : SyncWorld σ → SyncEvent → List β}
    {events later : List SyncEvent} {bound : Nat}
    (h : (w.collect see (events ++ later)).length < bound) :
    (w.collect see events).length < bound := by
  rw [collect_append, List.length_append] at h
  omega

/-- What can be read off a log part by part can be read off event by event. -/
theorem collect_of_append {β γ : Type} (read : List β → List γ) (hnil : read [] = [])
    (happend : ∀ log log', read (log ++ log') = read log ++ read log')
    (see : SyncWorld σ → SyncEvent → List β) (events : List SyncEvent) :
    w.collect (fun v event => read (see v event)) events = read (w.collect see events) := by
  induction events generalizing w with
  | nil => exact hnil.symm
  | cons event events ih => rw [collect, collect, happend, ih]

/-- Two logs kept in one hold what they hold apart. -/
theorem collect_append_perm {β : Type} (see see' : SyncWorld σ → SyncEvent → List β)
    (events : List SyncEvent) :
    (w.collect (fun v event => see v event ++ see' v event) events).Perm
      (w.collect see events ++ w.collect see' events) := by
  induction events generalizing w with
  | nil => exact .refl _
  | cons event events ih =>
      simp only [collect, List.append_assoc]
      refine .append_left _ (((ih (w.next event)).append_left _).trans ?_)
      simp only [← List.append_assoc]
      exact List.perm_append_comm.append_right _

/-- The connections that are opened. -/
def opened (w : SyncWorld σ) : SyncEvent → List ConnectionId
  | .step .openConnection => [w.gate.openConnection.1]
  | _ => []

/-- The tickets that are issued. -/
def tickets (w : SyncWorld σ) : SyncEvent → List SyncTicket
  | .step (.beginWait host connection) => [(w.gate.beginWait w.metrics host connection).1]
  | _ => []

/-- The numbers that tickets have on a host. -/
def sequencesOn (host : HostId) (log : List SyncTicket) : List UInt64 :=
  (log.filter fun ticket => ticket.host = host).map (·.sequence)

/-- The numbers of a host that are used up without a ticket, as `advance` answers them and as
receipts of announcements list them. -/
def advances (host : HostId) (w : SyncWorld σ) : SyncEvent → List UInt64
  | .step (.advance other) => if other = host then [(w.gate.advance other).1] else []
  | .announce event =>
      (announceTo w.rules w.targets event w.caches w.gate).1.hostSequences[host]?.toList
  | _ => []

/-- The numbers of a host that are handed out, with a ticket or without. -/
def numbers (host : HostId) (w : SyncWorld σ) (event : SyncEvent) : List UInt64 :=
  sequencesOn host (w.tickets event) ++ w.advances host event

/-- The host and number of each completion that is confirmed. -/
def completions (w : SyncWorld σ) : SyncEvent → List (HostId × UInt64)
  | .step (.complete ticket) =>
      if (w.gate.complete w.metrics ticket).1 then [(ticket.host, ticket.sequence)] else []
  | _ => []

/-- The host and number of each ticket that a drain drops because its connection is closed. -/
def drops (w : SyncWorld σ) (event : SyncEvent) : List (HostId × UInt64) :=
  match event.drained? with
  | some host => (w.gate.abandoned host).map (host, ·)
  | none => []

/-- The host and number of each ticket that is released, in one way or the other. -/
def released (w : SyncWorld σ) (event : SyncEvent) : List (HostId × UInt64) :=
  w.completions event ++ w.drops event

theorem mem_collect_released_iff {key : HostId × UInt64} {events : List SyncEvent} :
    key ∈ w.collect released events ↔
      key ∈ w.collect completions events ∨ key ∈ w.collect drops events :=
  (w.collect_append_perm completions drops events).mem_iff.trans List.mem_append

@[simp]
theorem sequencesOn_nil (host : HostId) : sequencesOn host [] = [] := rfl

theorem sequencesOn_singleton (host : HostId) (ticket : SyncTicket) :
    sequencesOn host [ticket] = if ticket.host = host then [ticket.sequence] else [] := by
  by_cases heq : ticket.host = host <;> simp [sequencesOn, heq]

@[simp]
theorem sequencesOn_append (host : HostId) (log log' : List SyncTicket) :
    sequencesOn host (log ++ log') = sequencesOn host log ++ sequencesOn host log' := by
  simp [sequencesOn]

@[simp]
theorem mem_sequencesOn_iff {host : HostId} {log : List SyncTicket} {number : UInt64} :
    number ∈ sequencesOn host log ↔ ∃ owner, ⟨host, number, owner⟩ ∈ log := by
  simp only [sequencesOn, List.mem_map, List.mem_filter, decide_eq_true_eq]
  constructor
  · intro h
    obtain ⟨ticket, ⟨hmem, rfl⟩, rfl⟩ := h
    exact ⟨ticket.connection, hmem⟩
  · intro h
    obtain ⟨owner, hmem⟩ := h
    exact ⟨_, ⟨hmem, rfl⟩, rfl⟩

section

variable {event : SyncEvent} {host : HostId} (h : event.drained? = some host)
include h

theorem opened_of_drained : w.opened event = [] := by
  unfold opened
  split
  · cases h
  · rfl

theorem tickets_of_drained : w.tickets event = [] := by
  unfold tickets
  split
  · cases h
  · rfl

theorem advances_of_drained (other : HostId) : w.advances other event = [] := by
  unfold advances
  split
  · cases h
  · cases h
  · rfl

theorem completions_of_drained : w.completions event = [] := by
  unfold completions
  split
  · cases h
  · rfl

theorem drops_of_drained : w.drops event = (w.gate.abandoned host).map (host, ·) := by
  rw [drops, h]

theorem numbers_of_drained (other : HostId) : w.numbers other event = [] := by
  rw [numbers, w.tickets_of_drained h, w.advances_of_drained h]
  rfl

theorem released_of_drained : w.released event = (w.gate.abandoned host).map (host, ·) := by
  rw [released, w.completions_of_drained h, w.drops_of_drained h]
  rfl

end

/-- A receipt has the next number of every affected host. -/
theorem hostSequences_announceTo (rules : InvalidationRules)
    (targets : List (InvalidationTarget σ)) (event : InvalidationEvent) (state : σ) (gate : Gate)
    (host : HostId) :
    (announceTo rules targets event state gate).1.hostSequences[host]? =
      if host ∈ event.affectedHosts then some (gate.lastIssued host + 1) else none := by
  change (Std.ExtTreeMap.ofList (gate.advanceAll event.affectedHosts.toList).1)[host]? = _
  have hnodup := nodup_toList_set event.affectedHosts
  rw [gate.advanceAll_fst hnodup]
  by_cases haffected : host ∈ event.affectedHosts
  · rw [if_pos haffected]
    exact getElem?_ofList_map id (fun other => gate.lastIssued other + 1) (by simpa using hnodup)
      (Std.ExtTreeSet.mem_toList.mpr haffected)
  · rw [if_neg haffected]
    apply Std.ExtTreeMap.getElem?_ofList_of_contains_eq_false
    simpa [Function.comp_def] using haffected

/-! ## Counting -/

/-- What is handed out by a counter that starts at zero is `1, 2, 3, …` as long as the counter
does not wrap around. -/
theorem consecutive_of_counter (counter : SyncWorld σ → UInt64)
    {see : SyncWorld σ → SyncEvent → List UInt64}
    (hstep : ∀ v event, see v event = [] ∧ counter (v.next event) = counter v ∨
      see v event = [counter v + 1] ∧ counter (v.next event) = counter v + 1)
    (hzero : counter w = 0) {events : List SyncEvent}
    (hroom : (w.collect see events).length < UInt64.size) :
    (w.collect see events).map UInt64.toNat = List.range' 1 (w.collect see events).length ∧
      (counter (w.run events)).toNat = (w.collect see events).length := by
  induction events using List.reverseRecOn with
  | nil => simp [collect, hzero]
  | append_singleton events event ih =>
      obtain ⟨hnumbers, hcounter⟩ := ih (w.length_collect_lt_of_append hroom)
      rw [collect_concat] at hroom ⊢
      rw [run_concat]
      rcases hstep (w.run events) event with ⟨hsee, hnext⟩ | ⟨hsee, hnext⟩
      · rw [hsee, hnext, List.append_nil]
        exact ⟨hnumbers, hcounter⟩
      · rw [hsee] at hroom ⊢
        have hvalue : (counter (w.run events) + 1).toNat = (w.collect see events).length + 1 := by
          rw [UInt64.toNat_add, hcounter]
          exact Nat.mod_eq_of_lt (by simpa using hroom)
        rw [List.map_append, hnumbers, hnext, List.length_append, List.map_singleton, hvalue,
          List.length_singleton, List.range'_1_concat, Nat.add_comm 1]
        exact ⟨rfl, rfl⟩

end SyncWorld

end ControlPlane
