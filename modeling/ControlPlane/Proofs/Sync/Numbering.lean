/-
# The numbers of a host and the holders of its tickets

One counter of a host numbers its tickets, its bare advances and the announcements that affect
it. Along a run that starts on a new gate these numbers are `1, 2, 3, …`, so a number names at
most one ticket for as long as the counter does not wrap around. What is outstanding is then
known from the logs of the run alone: the tickets that were issued and not released since.
-/

import ControlPlane.Proofs.Sync.Run
import Mathlib.Data.List.Nodup

namespace ControlPlane.SyncWorld

variable {σ : Type} (w : SyncWorld σ)

/-! ## What one event does -/

theorem tickets_issue (host : HostId) (connection : ConnectionId) :
    w.tickets (.step (.beginWait host connection)) =
      [⟨host, w.gate.lastIssued host + 1, connection⟩] := rfl

theorem released_complete (ticket : SyncTicket) :
    w.released (.step (.complete ticket)) =
      if (w.gate.owner? ticket.host ticket.sequence).isSome then [(ticket.host, ticket.sequence)]
      else [] := by
  rw [← w.gate.complete_fst w.metrics]
  exact List.append_nil _

/-- An event hands out the next number of a host or none. -/
theorem numbers_next (host : HostId) (event : SyncEvent) :
    w.numbers host event = [] ∧
        (w.next event).gate.lastIssued host = w.gate.lastIssued host ∨
      w.numbers host event = [w.gate.lastIssued host + 1] ∧
        (w.next event).gate.lastIssued host = w.gate.lastIssued host + 1 := by
  induction event using SyncEvent.byEffect with
  | opened => exact .inl ⟨rfl, rfl⟩
  | closed connection => exact .inl ⟨rfl, rfl⟩
  | issued other connection =>
      rw [numbers, tickets_issue, sequencesOn_singleton, gate_next_issue,
        Gate.lastIssued_beginWait]
      by_cases heq : other = host
      · right
        subst heq
        simp [advances]
      · left
        simp [advances, heq]
  | completed ticket => exact .inl ⟨rfl, w.gate.lastIssued_complete w.metrics ticket host⟩
  | advanced other =>
      rw [gate_next_advance, Gate.lastIssued_advance]
      by_cases heq : other = host
      · right
        subst heq
        simp [numbers, tickets, advances, Gate.advance, Gate.lastIssued]
      · left
        simp [numbers, tickets, advances, heq]
  | announced event =>
      have hlast := w.gate.lastIssued_advanceAll (nodup_toList_set event.affectedHosts) host
      simp only [Std.ExtTreeSet.mem_toList] at hlast
      rw [gate_next_announce, hlast]
      by_cases haffected : host ∈ event.affectedHosts
      · right
        simp [numbers, tickets, advances, hostSequences_announceTo, haffected]
      · left
        simp [numbers, tickets, advances, hostSequences_announceTo, haffected]
  | drained event other h =>
      left
      rw [w.gate_next_of_drained h, Gate.lastIssued_releaseClosed]
      exact ⟨w.numbers_of_drained h host, rfl⟩

theorem length_numbers_le (host : HostId) (events : List SyncEvent) :
    (w.collect (numbers host) events).length ≤ events.length := by
  induction events generalizing w with
  | nil => exact Nat.le_refl 0
  | cons event events ih =>
      rw [collect, List.length_append, List.length_cons]
      have hrest := ih (w.next event)
      rcases w.numbers_next host event with ⟨hevent, -⟩ | ⟨hevent, -⟩
      · rw [hevent, List.length_nil]
        omega
      · rw [hevent, List.length_singleton]
        omega

/-- What is outstanding after an event was issued by it, or was outstanding and is neither
released nor written over by it. -/
theorem owner?_next_eq_some_iff (event : SyncEvent) (host : HostId) (number : UInt64)
    (owner : ConnectionId) :
    (w.next event).gate.owner? host number = some owner ↔
      ⟨host, number, owner⟩ ∈ w.tickets event ∨
        w.gate.owner? host number = some owner ∧ (host, number) ∉ w.released event ∧
          ∀ other, ⟨host, number, other⟩ ∉ w.tickets event := by
  induction event using SyncEvent.byEffect with
  | opened => simp [tickets, released, completions, drops, SyncEvent.drained?, Gate.owner?]
  | closed connection =>
      simp [tickets, released, completions, drops, SyncEvent.drained?, Gate.owner?]
  | issued other connection =>
      have hreleased : w.released (.step (.beginWait other connection)) = [] := rfl
      rw [hreleased, tickets_issue, gate_next_issue, Gate.owner?_beginWait]
      by_cases heq : other = host
      · subst heq
        by_cases hnumber : w.gate.lastIssued other + 1 = number
        · simp [hnumber, eq_comm]
        · simp [hnumber, Ne.symm hnumber]
      · simp [heq, Ne.symm heq]
  | completed ticket =>
      have htickets : w.tickets (.step (.complete ticket)) = [] := rfl
      rw [htickets, released_complete, gate_next_complete, Gate.owner?_complete]
      by_cases hsame : ticket.host = host ∧ ticket.sequence = number
      · obtain ⟨rfl, rfl⟩ := hsame
        cases w.gate.owner? ticket.host ticket.sequence with
        | none => simp
        | some issuedTo => simp
      · have hother : (host, number) ≠ (ticket.host, ticket.sequence) := by
          intro h
          cases h
          exact hsame ⟨rfl, rfl⟩
        rw [if_neg hsame]
        split <;> simp [hother]
  | advanced other => simp [tickets, released, completions, drops, SyncEvent.drained?]
  | announced event =>
      simp [tickets, released, completions, drops, SyncEvent.drained?,
        Gate.owner?_advanceAll _ (nodup_toList_set event.affectedHosts)]
  | drained event other h =>
      rw [w.tickets_of_drained h, w.released_of_drained h, w.gate_next_of_drained h,
        Gate.owner?_releaseClosed]
      by_cases heq : other = host
      · subst heq
        cases howner : w.gate.owner? other number with
        | none => simp
        | some issuedTo =>
            have hdropped : number ∈ w.gate.abandoned other ↔ w.gate.isClosed issuedTo = true := by
              simp [Gate.mem_abandoned_iff, howner]
            rw [if_pos rfl, Option.filter_some]
            cases hclosed : w.gate.isClosed issuedTo <;> simp [hdropped, hclosed]
      · simp [heq]

/-- Only what is outstanding can be released. -/
theorem exists_owner?_of_mem_released {event : SyncEvent} {host : HostId} {number : UInt64}
    (h : (host, number) ∈ w.released event) :
    ∃ owner, w.gate.owner? host number = some owner := by
  rcases List.mem_append.mp h with hcompleted | hdropped
  · unfold completions at hcompleted
    split at hcompleted
    · next ticket =>
      split at hcompleted
      · next hsome =>
        cases List.mem_singleton.mp hcompleted
        rw [Gate.complete_fst] at hsome
        exact Option.isSome_iff_exists.mp hsome
      · cases hcompleted
    · cases hcompleted
  · unfold drops at hdropped
    split at hdropped
    · next other hdrained =>
      obtain ⟨dropped, hmem, heq⟩ := List.mem_map.mp hdropped
      cases heq
      obtain ⟨owner, howner, -⟩ := w.gate.mem_abandoned_iff.mp hmem
      exact ⟨owner, howner⟩
    · cases hdropped

theorem eq_of_mem_tickets_event {event : SyncEvent} {ticket : SyncTicket}
    (h : ticket ∈ w.tickets event) :
    event = .step (.beginWait ticket.host ticket.connection) := by
  unfold tickets at h
  split at h
  · rw [List.mem_singleton.mp h]
    rfl
  · cases h

/-! ## Logs of tickets -/

/-- The numbers of a host belong to its tickets or come without one. -/
theorem numbers_perm (host : HostId) (events : List SyncEvent) :
    (w.collect (numbers host) events).Perm
      (sequencesOn host (w.collect tickets events) ++ w.collect (advances host) events) := by
  rw [← w.collect_of_append (sequencesOn host) rfl (sequencesOn_append host)]
  exact w.collect_append_perm _ (advances host) events

theorem mem_numbers_of_mem_tickets {host : HostId} {number : UInt64} {owner : ConnectionId}
    {events : List SyncEvent} (h : ⟨host, number, owner⟩ ∈ w.collect tickets events) :
    number ∈ w.collect (numbers host) events :=
  (w.numbers_perm host events).mem_iff.mpr
    (List.mem_append_left _ (mem_sequencesOn_iff.mpr ⟨owner, h⟩))

/-! ## Runs on a new gate -/

section

variable {w} {host : HostId} {events : List SyncEvent} (hnew : w.gate.IsNew)
include hnew

theorem lane_of_isNew (host : HostId) : w.gate.lane host = {} := by
  rw [Gate.lane, hnew.lanes_eq]
  rfl

/-- The connection that holds a number was issued a ticket of that number. -/
theorem mem_tickets_of_owner? {number : UInt64} {owner : ConnectionId}
    (h : (w.run events).gate.owner? host number = some owner) :
    ⟨host, number, owner⟩ ∈ w.collect tickets events := by
  induction events using List.reverseRecOn with
  | nil =>
      rw [run_nil, Gate.owner?, lane_of_isNew hnew] at h
      simp at h
  | append_singleton events event ih =>
      rw [run_concat, owner?_next_eq_some_iff] at h
      rw [collect_concat]
      rcases h with hissued | ⟨hbefore, -, -⟩
      · exact List.mem_append_right _ hissued
      · exact List.mem_append_left _ (ih hbefore)

/-- Only what was issued is ever released. -/
theorem exists_mem_tickets_of_mem_released {number : UInt64}
    (h : (host, number) ∈ w.collect released events) :
    ∃ owner, ⟨host, number, owner⟩ ∈ w.collect tickets events := by
  induction events using List.reverseRecOn with
  | nil => cases h
  | append_singleton events event ih =>
      rw [collect_concat] at h
      simp only [collect_concat, List.mem_append]
      rcases List.mem_append.mp h with hbefore | hnow
      · obtain ⟨owner, howner⟩ := ih hbefore
        exact ⟨owner, .inl howner⟩
      · obtain ⟨owner, howner⟩ := exists_owner?_of_mem_released _ hnow
        exact ⟨owner, .inl (mem_tickets_of_owner? hnew howner)⟩

variable (hroom : (w.collect (numbers host) events).length < UInt64.size)
include hroom

/-- The numbers of a host are `1, 2, 3, …`, and the last one is their count. -/
theorem toNat_numbers :
    (w.collect (numbers host) events).map UInt64.toNat =
        List.range' 1 (w.collect (numbers host) events).length ∧
      ((w.run events).gate.lastIssued host).toNat =
        (w.collect (numbers host) events).length := by
  have hzero : w.gate.lastIssued host = 0 := by
    rw [Gate.lastIssued, lane_of_isNew hnew]
  exact w.consecutive_of_counter (fun v => v.gate.lastIssued host)
    (fun v => v.numbers_next host) hzero hroom

theorem bounds_of_mem_numbers {number : UInt64}
    (h : number ∈ w.collect (numbers host) events) :
    1 ≤ number.toNat ∧ number.toNat ≤ (w.collect (numbers host) events).length := by
  have hmem := List.mem_map_of_mem (f := UInt64.toNat) h
  rw [(toNat_numbers hnew hroom).1, List.mem_range'_1] at hmem
  omega

/-- The next number was not handed out before. -/
theorem lastIssued_add_one_notMem_numbers :
    (w.run events).gate.lastIssued host + 1 ∉ w.collect (numbers host) events := by
  intro hissued
  have hbounds := bounds_of_mem_numbers hnew hroom hissued
  rw [UInt64.toNat_add, (toNat_numbers hnew hroom).2, UInt64.toNat_one] at hbounds
  simp only [UInt64.size] at hroom
  omega

/-- The next ticket is not written over another. -/
theorem owner?_lastIssued_add_one :
    (w.run events).gate.owner? host ((w.run events).gate.lastIssued host + 1) = none := by
  rw [Option.eq_none_iff_forall_ne_some]
  intro owner howner
  exact lastIssued_add_one_notMem_numbers hnew hroom
    (w.mem_numbers_of_mem_tickets (mem_tickets_of_owner? hnew howner))

theorem nodup_numbers : (w.collect (numbers host) events).Nodup := by
  apply List.Nodup.of_map UInt64.toNat
  rw [(toNat_numbers hnew hroom).1]
  exact List.nodup_range'

/-- The numbers of tickets differ from one another and from those without a ticket. -/
theorem nodup_sequences_append_advances :
    (sequencesOn host (w.collect tickets events) ++ w.collect (advances host) events).Nodup :=
  (w.numbers_perm host events).nodup_iff.mp (nodup_numbers hnew hroom)

theorem nodup_sequences : (sequencesOn host (w.collect tickets events)).Nodup :=
  (List.nodup_append.mp (nodup_sequences_append_advances hnew hroom)).1

/-- A number without a ticket is the number of no ticket. -/
theorem not_mem_tickets_of_mem_advances {number : UInt64}
    (h : number ∈ w.collect (advances host) events) (owner : ConnectionId) :
    ⟨host, number, owner⟩ ∉ w.collect tickets events := by
  intro hticket
  have hdisjoint := (List.nodup_append.mp (nodup_sequences_append_advances hnew hroom)).2.2
  exact hdisjoint number (mem_sequencesOn_iff.mpr ⟨owner, hticket⟩) number h rfl

/-- A number is the number of at most one ticket. -/
theorem eq_of_mem_tickets {number : UInt64} {owner other : ConnectionId}
    (h : ⟨host, number, owner⟩ ∈ w.collect tickets events)
    (h' : ⟨host, number, other⟩ ∈ w.collect tickets events) : owner = other := by
  have hsame := List.inj_on_of_nodup_map (nodup_sequences hnew hroom)
    (List.mem_filter.mpr ⟨h, decide_eq_true rfl⟩) (List.mem_filter.mpr ⟨h', decide_eq_true rfl⟩) rfl
  cases hsame
  rfl

/-- What is outstanding is what was issued and not released. -/
theorem owner?_run_eq_some_iff (number : UInt64) (owner : ConnectionId) :
    (w.run events).gate.owner? host number = some owner ↔
      ⟨host, number, owner⟩ ∈ w.collect tickets events ∧
        (host, number) ∉ w.collect released events := by
  induction events using List.reverseRecOn with
  | nil => simp [collect, Gate.owner?, lane_of_isNew hnew]
  | append_singleton events event ih =>
      -- a number that is issued now was not issued before, and so cannot have been released
      have hfresh (other : ConnectionId)
          (hissued : ⟨host, number, other⟩ ∈ (w.run events).tickets event)
          (earlier : ConnectionId) :
          ⟨host, number, earlier⟩ ∉ w.collect tickets events := by
        intro hearlier
        have hsequences := nodup_sequences hnew hroom
        rw [collect_concat, sequencesOn_append, List.nodup_append] at hsequences
        exact hsequences.2.2 number (mem_sequencesOn_iff.mpr ⟨earlier, hearlier⟩) number
          (mem_sequencesOn_iff.mpr ⟨other, hissued⟩) rfl
      rw [run_concat, owner?_next_eq_some_iff, ih (w.length_collect_lt_of_append hroom)]
      simp only [collect_concat, List.mem_append, not_or]
      constructor
      · intro h
        rcases h with hissued | ⟨⟨hbefore, hkept⟩, hnow, -⟩
        · refine ⟨.inr hissued, ?_, ?_⟩
          · intro hreleased
            obtain ⟨earlier, hearlier⟩ := exists_mem_tickets_of_mem_released hnew hreleased
            exact hfresh owner hissued earlier hearlier
          · rw [eq_of_mem_tickets_event _ hissued]
            exact List.not_mem_nil
        · exact ⟨.inl hbefore, hkept, hnow⟩
      · intro h
        obtain ⟨hbefore | hissued, hkept, hnow⟩ := h
        · refine .inr ⟨⟨hbefore, hkept⟩, hnow, ?_⟩
          intro other hother
          exact hfresh other hother owner hbefore
        · exact .inl hissued

/-- Whatever is done with a gate, the numbers handed out for a host are `1, 2, 3, …` in order and
the last one is their count. A number is held by the connection that it was issued to, or by
nobody; the next one is held by nobody, and nor is one that was used up without a ticket, which
therefore cannot be completed. -/
theorem numbers_consecutive :
    (w.collect (numbers host) events).map UInt64.toNat =
        List.range' 1 (w.collect (numbers host) events).length ∧
      ((w.run events).gate.lastIssued host).toNat =
        (w.collect (numbers host) events).length ∧
      (∀ number owner, (w.run events).gate.owner? host number = some owner →
        ⟨host, number, owner⟩ ∈ w.collect tickets events) ∧
      (w.run events).gate.owner? host ((w.run events).gate.lastIssued host + 1) = none ∧
      ∀ number ∈ w.collect (advances host) events, ∀ m connection,
        ((w.run events).gate.complete m ⟨host, number, connection⟩).1 = false := by
  obtain ⟨hnumbers, hlast⟩ := toNat_numbers hnew hroom
  refine ⟨hnumbers, hlast, fun _ _ => mem_tickets_of_owner? hnew,
    owner?_lastIssued_add_one hnew hroom, ?_⟩
  intro number hadvanced m connection
  rw [Gate.complete_fst, Option.isSome_eq_false_iff, Option.isNone_iff_eq_none,
    Option.eq_none_iff_forall_ne_some]
  intro owner howner
  exact not_mem_tickets_of_mem_advances hnew hroom hadvanced owner
    (mem_tickets_of_owner? hnew howner)

end

/-- Two connections and two hosts: a ticket, numbers of both kinds without one, a completion
that is made up, and a ticket of a connection that is closed before. -/
def mixedRun : List SyncEvent :=
  [.step .openConnection, .step (.beginWait ⟨1⟩ ⟨1⟩), .step (.advance ⟨1⟩),
    .announce (({ table := "servers" } : InvalidationEvent).withHosts [⟨2⟩, ⟨1⟩]),
    .step (.complete ⟨⟨1⟩, 2, ⟨7⟩⟩), .step (.closeConnection ⟨1⟩), .step (.drain ⟨1⟩),
    .step (.beginWait ⟨1⟩ ⟨1⟩)]

/-- A gate for which no data is registered. -/
def loneGate : SyncWorld Unit where
  rules := {}
  targets := []
  caches := ()

theorem numbers_consecutive_of_mixedRun :
    loneGate.gate.IsNew ∧ (loneGate.collect (numbers ⟨1⟩) mixedRun).length = 4 ∧
      (loneGate.collect (numbers ⟨1⟩) mixedRun).map UInt64.toNat = [1, 2, 3, 4] ∧
      2 ∈ loneGate.collect (advances ⟨1⟩) mixedRun ∧
      ((loneGate.run mixedRun).gate.complete {} ⟨⟨1⟩, 2, ⟨1⟩⟩).1 = false := by
  have hnew : loneGate.gate.IsNew := ⟨rfl, rfl, rfl⟩
  have hlength : (loneGate.collect (numbers ⟨1⟩) mixedRun).length = 4 := by decide +kernel
  have hadvanced : 2 ∈ loneGate.collect (advances ⟨1⟩) mixedRun := by decide +kernel
  have hroom : (loneGate.collect (numbers ⟨1⟩) mixedRun).length < UInt64.size := by
    rw [hlength]
    decide
  obtain ⟨hnumbers, -, -, -, hlost⟩ := numbers_consecutive hnew hroom
  rw [hlength] at hnumbers
  exact ⟨hnew, hlength, hnumbers, hadvanced, hlost 2 hadvanced {} ⟨1⟩⟩

end ControlPlane.SyncWorld
