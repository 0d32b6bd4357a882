/-
# What closed connections leave noted

Closing a connection clears its notes and not its tickets, which are dropped by the next drain of
their host. A connection that is closed may still be issued tickets, and it notes these again. A
completion takes one off the note of its owner; a drain drops the tickets and takes nothing off.

So the notes of a closed connection are not the numbers of tickets it owns: there may be fewer,
for what was issued before it closed, or more, for what drains have dropped. Which of the two it
is can be read off the drains alone. A note that a drain leaves behind is never cleared.
-/

import ControlPlane.Proofs.Sync.Wakeups

namespace ControlPlane

open Std (ExtTreeMap)

namespace Gate

open Connection (note isSome_note_iff)

/-- Closed connections have noted no host but those on which they own outstanding tickets. -/
def ClosedNoteOwned (g : Gate) : Prop :=
  ∀ connection, g.isClosed connection = true → ∀ host ∈ g.waitingHosts connection,
    ∃ number, g.owner? host number = some connection

/-- The notes of closed connections, up to what some drains have left: there are more than
tickets owned exactly where a drain left some. -/
structure Leaves (g : Gate) (left : List (ConnectionId × HostId)) : Prop where
  isClosed_of_mem : ∀ entry ∈ left, g.isClosed entry.1 = true
  note_of_isClosed : ∀ connection host, g.isClosed connection = true →
    ∃ count, g.noted? host connection = note count
      ∧ ((connection, host) ∈ left ↔ g.held host connection < count)

variable {g : Gate} {m : Metrics} {host other : HostId} {connection owner : ConnectionId}
  {left : List (ConnectionId × HostId)}

/-! ## Notes and tickets of closed connections -/

/-- A connection forgets its notes when it closes, but not when it is closed again. -/
theorem noted?_closeConnection_eq_ite :
    (g.closeConnection owner).noted? host connection =
      if owner = connection ∧ g.isClosed connection = false then none
      else g.noted? host connection := by
  by_cases heq : owner = connection
  · subst heq
    simp only [noted?, closeConnection, ExtTreeMap.getElem?_modify_self]
    cases hc : g.connections[owner]? with
    | none => simp
    | some c => cases hclosed : c.isClosed <;> simp [isClosed, hc, hclosed]
  · rw [if_neg fun hboth => heq hboth.1]
    simp [noted?, closeConnection, ExtTreeMap.getElem?_modify, heq]

/-- A drain drops all tickets of a closed connection. -/
theorem held_releaseClosed_of_isClosed (hclosed : g.isClosed connection = true) :
    (g.releaseClosed m host).1.held other connection =
      if host = other then 0 else g.held other connection := by
  simp only [held, lane_releaseClosed]
  by_cases heq : host = other
  · rw [if_pos heq, if_pos heq, ExtTreeMap.toList_filter, List.countP_filter, List.countP_eq_zero]
    intro ticket _
    simp only [Bool.and_eq_true, decide_eq_true_eq, not_and]
    intro howner
    rw [howner, hclosed]
    exact Bool.false_ne_true
  · rw [if_neg heq, if_neg heq]

namespace Leaves

/-- What is seen of closed connections, where it is known what drains left. -/
theorem closedNoteOwned_iff (h : g.Leaves left) :
    g.ClosedNoteOwned ↔ ∀ entry ∈ left, g.held entry.2 entry.1 ≠ 0 := by
  constructor
  · intro howned entry hentry
    have hclosed := h.isClosed_of_mem entry hentry
    obtain ⟨count, hnote, hleft⟩ := h.note_of_isClosed entry.1 entry.2 hclosed
    have hmore : g.held entry.2 entry.1 < count := hleft.mp hentry
    apply held_ne_zero_iff.mpr
    apply howned entry.1 hclosed
    rw [Bookkept.mem_waitingHosts_iff, hnote, isSome_note_iff]
    omega
  · intro hheld connection hclosed host hnoted
    obtain ⟨count, hnote, hleft⟩ := h.note_of_isClosed connection host hclosed
    rw [Bookkept.mem_waitingHosts_iff, hnote, isSome_note_iff] at hnoted
    apply held_ne_zero_iff.mp
    by_cases hmem : (connection, host) ∈ left
    · exact hheld _ hmem
    · rw [hleft] at hmem
      omega

/-- What drains left stays the same where neither notes nor tickets of closed connections
change. -/
theorem of_eq {g' : Gate} (h : g.Leaves left)
    (hclosed : ∀ connection, g'.isClosed connection = g.isClosed connection)
    (hnoted : ∀ connection host, g'.noted? host connection = g.noted? host connection)
    (hheld : ∀ connection host, g'.held host connection = g.held host connection) :
    g'.Leaves left where
  isClosed_of_mem entry hentry := (hclosed entry.1).trans (h.isClosed_of_mem entry hentry)
  note_of_isClosed connection host hclosed' := by
    rw [hnoted, hheld]
    exact h.note_of_isClosed connection host ((hclosed connection).symm.trans hclosed')

theorem openConnection (h : g.Leaves left) (hfresh : g.isClosed ⟨g.nextConnection⟩ = false) :
    g.openConnection.2.Leaves left where
  isClosed_of_mem entry hentry := by
    rw [isClosed_openConnection_of_fresh hfresh]
    exact h.isClosed_of_mem entry hentry
  note_of_isClosed connection host hclosed := by
    rw [isClosed_openConnection_of_fresh hfresh] at hclosed
    have hne : ⟨g.nextConnection⟩ ≠ connection := by
      intro heq
      rw [heq, hclosed] at hfresh
      cases hfresh
    rw [noted?_openConnection, if_neg hne]
    exact h.note_of_isClosed connection host hclosed

/-- The notes that are cleared by a closing were not left by drains. -/
theorem closeConnection (h : g.Leaves left) (owner : ConnectionId) :
    (g.closeConnection owner).Leaves left where
  isClosed_of_mem entry hentry := by
    rw [isClosed_closeConnection, h.isClosed_of_mem entry hentry, Bool.true_or]
  note_of_isClosed connection host hclosed := by
    have hheld : (g.closeConnection owner).held host connection = g.held host connection := rfl
    rw [noted?_closeConnection_eq_ite, hheld]
    cases hbefore : g.isClosed connection with
    | true =>
        rw [if_neg fun hboth => Bool.noConfusion hboth.2]
        exact h.note_of_isClosed connection host hbefore
    | false =>
        rw [isClosed_closeConnection, hbefore, Bool.false_or, Bool.and_eq_true,
          decide_eq_true_eq] at hclosed
        rw [if_pos ⟨hclosed.1, rfl⟩]
        refine ⟨0, rfl, ?_, fun hless => absurd hless (Nat.not_lt_zero _)⟩
        intro hmem
        rw [h.isClosed_of_mem _ hmem] at hbefore
        cases hbefore

theorem beginWait (h : g.Leaves left) (hknown : owner ∈ g.connections)
    (hfree : g.owner? host (g.lastIssued host + 1) = none) :
    (g.beginWait m host owner).2.1.Leaves left where
  isClosed_of_mem entry hentry := by
    rw [isClosed_beginWait]
    exact h.isClosed_of_mem entry hentry
  note_of_isClosed connection other hclosed := by
    rw [isClosed_beginWait] at hclosed
    obtain ⟨count, hnote, hleft⟩ := h.note_of_isClosed connection other hclosed
    rw [noted?_beginWait hknown, held_beginWait hfree, hnote]
    by_cases hhere : host = other ∧ owner = connection
    · rw [if_pos hhere, if_pos hhere]
      refine ⟨count + 1, ?_, hleft.trans Nat.add_lt_add_iff_right.symm⟩
      by_cases hzero : count = 0 <;> simp [note, hzero]
    · rw [if_neg hhere, if_neg hhere]
      exact ⟨count, rfl, hleft⟩

theorem complete (h : g.Leaves left) (ticket : SyncTicket) :
    (g.complete m ticket).2.1.Leaves left := by
  cases howner : g.owner? ticket.host ticket.sequence with
  | none =>
      have hsame : (g.complete m ticket).2.1 = g := by
        rw [Gate.complete, howner]
      rw [hsame]
      exact h
  | some owner =>
      constructor
      · intro entry hentry
        rw [isClosed_complete]
        exact h.isClosed_of_mem entry hentry
      · intro connection other hclosed
        rw [isClosed_complete] at hclosed
        obtain ⟨count, hnote, hleft⟩ := h.note_of_isClosed connection other hclosed
        have hheld := g.held_complete m ticket other connection
        simp only [howner, Option.some.injEq] at hheld
        rw [noted?_complete howner, hnote]
        by_cases hhere : ticket.host = other ∧ owner = connection
        · rw [if_pos hhere] at hheld ⊢
          -- the owner held this ticket, so one less on both sides keeps which is more
          refine ⟨count - 1, ?_, hleft.trans ?_⟩
          · by_cases hzero : count = 0 <;> simp [note, hzero]
          · omega
        · rw [if_neg hhere] at hheld ⊢
          rw [Nat.add_zero] at hheld
          exact ⟨count, rfl, hheld ▸ hleft⟩

/-- A drain leaves what it drops the tickets of. -/
theorem releaseClosed (h : g.Leaves left) (host : HostId)
    {left' : List (ConnectionId × HostId)}
    (hleft' : ∀ connection other, (connection, other) ∈ left' ↔
      (connection, other) ∈ left
        ∨ host = other ∧ g.isClosed connection = true ∧ other ∈ g.waitingHosts connection) :
    (g.releaseClosed m host).1.Leaves left' where
  isClosed_of_mem entry hentry := by
    rw [isClosed_releaseClosed]
    rcases (hleft' entry.1 entry.2).mp hentry with hbefore | ⟨-, hclosed, -⟩
    · exact h.isClosed_of_mem entry hbefore
    · exact hclosed
  note_of_isClosed connection other hclosed := by
    rw [isClosed_releaseClosed] at hclosed
    obtain ⟨count, hnote, hleft⟩ := h.note_of_isClosed connection other hclosed
    have hnoted : (g.releaseClosed m host).1.noted? other connection = note count := hnote
    refine ⟨count, hnoted, ?_⟩
    rw [hleft', held_releaseClosed_of_isClosed hclosed, hleft, Bookkept.mem_waitingHosts_iff,
      hnote, isSome_note_iff]
    by_cases heq : host = other
    · rw [if_pos heq]
      simp only [heq, hclosed, true_and]
      omega
    · rw [if_neg heq]
      simp [heq]

end Leaves

theorem IsNew.leaves (h : g.IsNew) : g.Leaves [] := by
  constructor
  · intro entry hentry
    cases hentry
  · intro connection host hclosed
    rw [isClosed, h.connections_eq] at hclosed
    simp at hclosed

end Gate

namespace SyncWorld

open Gate (ClosedNoteOwned Leaves)

variable {σ : Type} {w : SyncWorld σ} {events : List SyncEvent} {event : SyncEvent}

/-! ## What drains leave -/

/-- What a drain leaves noted: each closed connection that has noted the host that is drained,
and will have it noted with none of its tickets left there. -/
def leavings (w : SyncWorld σ) (event : SyncEvent) : List (ConnectionId × HostId) :=
  match event.drained? with
  | some host =>
      (w.gate.connections.keys.filter fun connection =>
        w.gate.isClosed connection ∧ host ∈ w.gate.waitingHosts connection).map (·, host)
  | none => []

/-- The connection to which a ticket is issued although it is closed. -/
def belated (w : SyncWorld σ) : SyncEvent → List ConnectionId
  | .step (.beginWait _ connection) => if w.gate.isClosed connection then [connection] else []
  | _ => []

theorem mem_leavings_iff {connection : ConnectionId} {host : HostId} :
    (connection, host) ∈ w.leavings event ↔
      event.drained? = some host ∧ w.gate.isClosed connection = true
        ∧ host ∈ w.gate.waitingHosts connection := by
  unfold leavings
  split
  · next drained hdrained =>
      rw [hdrained]
      simp only [List.mem_map, List.mem_filter, decide_eq_true_eq, Prod.mk.injEq,
        Option.some.injEq]
      constructor
      · rintro ⟨_, ⟨-, hclosed, hnoted⟩, rfl, rfl⟩
        exact ⟨rfl, hclosed, hnoted⟩
      · rintro ⟨rfl, hclosed, hnoted⟩
        have hknown := ExtTreeMap.mem_keys.mpr (Gate.mem_connections_of_isClosed _ hclosed)
        exact ⟨connection, ⟨hknown, hclosed, hnoted⟩, rfl, rfl⟩
  · next hdrained =>
      rw [hdrained]
      simp

theorem mem_connections_of_strangers {host : HostId} {connection : ConnectionId}
    (h : w.strangers (.step (.beginWait host connection)) = []) :
    connection ∈ w.gate.connections := by
  by_contra hunknown
  rw [strangers, if_neg hunknown] at h
  cases h

/-- Every event leaves it known what drains left. -/
theorem leaves_next {left : List (ConnectionId × HostId)} (h : w.gate.Leaves left)
    (hfresh : ∀ connection ∈ w.opened event, w.gate.isClosed connection = false)
    (hfree : ∀ host, w.gate.owner? host (w.gate.lastIssued host + 1) = none)
    (hknown : w.strangers event = []) :
    (w.next event).gate.Leaves (left ++ w.leavings event) := by
  -- nothing but a drain leaves anything
  have hnothing {g : Gate} (h : g.Leaves left) : g.Leaves (left ++ []) := by
    rwa [List.append_nil]
  induction event using SyncEvent.byEffect with
  | opened =>
      exact hnothing (h.openConnection (hfresh _ (List.mem_singleton.mpr rfl)))
  | closed connection => exact hnothing (h.closeConnection connection)
  | issued host connection =>
      have hmem := mem_connections_of_strangers hknown
      exact hnothing (h.beginWait (m := w.metrics) hmem (hfree host))
  | completed ticket => exact hnothing (h.complete ticket)
  | advanced host =>
      apply hnothing
      exact h.of_eq (fun _ => rfl) (fun _ _ => rfl) fun _ _ => Gate.held_advance
  | announced event =>
      rw [gate_next_announce]
      apply hnothing
      refine h.of_eq (fun _ => Gate.isClosed_advanceAll ..) ?_
        fun _ _ => Gate.held_advanceAll (nodup_toList_set event.affectedHosts)
      intro connection host
      rw [Gate.advanceAll_snd]
      rfl
  | drained event host hdrained =>
      rw [w.gate_next_of_drained hdrained]
      apply h.releaseClosed host
      intro connection other
      rw [List.mem_append, mem_leavings_iff, hdrained, Option.some.injEq]

/-- Closed connections that are issued no tickets note nothing. -/
theorem noted?_next_eq_none
    (h : ∀ connection host, w.gate.isClosed connection = true →
      w.gate.noted? host connection = none)
    (hfresh : ∀ connection ∈ w.opened event, w.gate.isClosed connection = false)
    (hknown : w.strangers event = []) (hintime : w.belated event = [])
    (connection : ConnectionId) (host : HostId)
    (hclosed : (w.next event).gate.isClosed connection = true) :
    (w.next event).gate.noted? host connection = none := by
  induction event using SyncEvent.byEffect with
  | opened =>
      rw [gate_next_open, Gate.noted?_openConnection]
      split
      · rfl
      · rw [gate_next_open, Gate.isClosed_openConnection_of_fresh
          (hfresh _ (List.mem_singleton.mpr rfl))] at hclosed
        exact h connection host hclosed
  | closed other =>
      rw [gate_next_close, Gate.noted?_closeConnection_eq_ite]
      split
      · rfl
      · next hstays =>
          apply h connection host
          rw [gate_next_close, Gate.isClosed_closeConnection, Bool.or_eq_true, Bool.and_eq_true,
            decide_eq_true_eq] at hclosed
          rcases hclosed with hbefore | ⟨rfl, -⟩
          · exact hbefore
          · simpa using hstays
  | issued other owner =>
      rw [gate_next_issue, Gate.isClosed_beginWait] at hclosed
      have hne : owner ≠ connection := by
        rintro rfl
        simp [belated, hclosed] at hintime
      rw [gate_next_issue, Gate.noted?_beginWait (mem_connections_of_strangers hknown),
        if_neg fun hboth => hne hboth.2]
      exact h connection host hclosed
  | completed ticket =>
      rw [gate_next_complete, Gate.isClosed_complete] at hclosed
      rw [gate_next_complete]
      cases howner : w.gate.owner? ticket.host ticket.sequence with
      | none =>
          rw [Gate.complete, howner]
          exact h connection host hclosed
      | some owner =>
          rw [Gate.noted?_complete howner, h connection host hclosed]
          exact ite_self none
  | advanced other => exact h connection host hclosed
  | announced event =>
      rw [gate_next_announce, Gate.isClosed_advanceAll] at hclosed
      rw [gate_next_announce, Gate.advanceAll_snd]
      exact h connection host hclosed
  | drained event other hdrained =>
      rw [w.gate_next_of_drained hdrained] at hclosed ⊢
      exact h connection host hclosed

theorem collect_eq_nil_of_isPrefix {β : Type} {see : SyncWorld σ → SyncEvent → List β}
    {before : List SyncEvent} (hearlier : before <+: events) (h : w.collect see events = []) :
    w.collect see before = [] := by
  obtain ⟨later, rfl⟩ := hearlier
  rw [collect_append, List.append_eq_nil_iff] at h
  exact h.1

theorem HasRoom.of_isPrefix {host : HostId} {before : List SyncEvent}
    (hearlier : before <+: events) (h : w.HasRoom host events) : w.HasRoom host before := by
  obtain ⟨later, rfl⟩ := hearlier
  exact h.of_append

/-! ## Runs on a new gate -/

/-- What is opened next is not closed. -/
theorem isClosed_of_mem_opened (hnew : w.gate.IsNew)
    (hroom : w.HasRoom ⟨0⟩ (events ++ [event])) {connection : ConnectionId}
    (hopened : connection ∈ (w.run events).opened event) :
    (w.run events).gate.isClosed connection = false := by
  apply Bool.eq_false_iff.mpr
  intro hclosed
  exact not_mem_opened_of_isClosed hnew hroom.opened_lt hclosed hopened

section

variable (hnew : w.gate.IsNew) (hroom : ∀ host, w.HasRoom host events)
  (hknown : w.collect strangers events = [])
include hnew hroom hknown

theorem leaves_run : (w.run events).gate.Leaves (w.collect leavings events) := by
  induction events using List.reverseRecOn with
  | nil => exact hnew.leaves
  | append_singleton events event ih =>
      have hbefore (host : HostId) : w.HasRoom host events := (hroom host).of_append
      rw [collect_concat, List.append_eq_nil_iff] at hknown
      rw [run_concat, collect_concat]
      apply leaves_next (ih hbefore hknown.1) _ _ hknown.2
      · exact fun connection => isClosed_of_mem_opened hnew (hroom ⟨0⟩)
      · exact fun host => owner?_lastIssued_add_one hnew (hbefore host).numbers_lt

theorem noted?_run_eq_none (hintime : w.collect belated events = []) (connection : ConnectionId)
    (host : HostId) (hclosed : (w.run events).gate.isClosed connection = true) :
    (w.run events).gate.noted? host connection = none := by
  induction events using List.reverseRecOn generalizing connection host with
  | nil =>
      rw [run_nil, Gate.isClosed, hnew.connections_eq] at hclosed
      simp at hclosed
  | append_singleton events event ih =>
      rw [collect_concat, List.append_eq_nil_iff] at hknown hintime
      rw [run_concat] at hclosed ⊢
      apply noted?_next_eq_none _ _ hknown.2 hintime.2 connection host hclosed
      · exact ih (fun host => (hroom host).of_append) hknown.1 hintime.1
      · exact fun connection => isClosed_of_mem_opened hnew (hroom ⟨0⟩)

/-- If no ticket is issued to a closed connection, drains leave nothing. -/
theorem leavings_eq_nil_of_belated (hintime : w.collect belated events = []) :
    w.collect leavings events = [] := by
  rw [List.eq_nil_iff_forall_not_mem]
  intro entry hentry
  obtain ⟨before, event, later, rfl, hleft⟩ := mem_collect_iff.mp hentry
  have hbefore : before <+: before ++ event :: later := List.prefix_append ..
  obtain ⟨-, hclosed, hnoted⟩ := mem_leavings_iff.mp hleft
  rw [Gate.Bookkept.mem_waitingHosts_iff, noted?_run_eq_none hnew
    (fun host => (hroom host).of_isPrefix hbefore) (collect_eq_nil_of_isPrefix hbefore hknown)
    (collect_eq_nil_of_isPrefix hbefore hintime) entry.1 entry.2 hclosed] at hnoted
  cases hnoted

/-- Right after a drain has left a note, the connection owns nothing there. -/
theorem not_closedNoteOwned_of_mem_leavings {before : List SyncEvent} {event : SyncEvent}
    (hearlier : before ++ [event] <+: events) {entry : ConnectionId × HostId}
    (hleft : entry ∈ (w.run before).leavings event) :
    ¬ (w.run (before ++ [event])).gate.ClosedNoteOwned := by
  have hleaves := leaves_run hnew (fun host => (hroom host).of_isPrefix hearlier)
    (collect_eq_nil_of_isPrefix hearlier hknown)
  rw [hleaves.closedNoteOwned_iff, collect_concat]
  intro hheld
  obtain ⟨hdrained, hclosed, -⟩ := mem_leavings_iff.mp hleft
  apply hheld entry (List.mem_append_right _ hleft)
  rw [run_concat, (w.run before).gate_next_of_drained hdrained,
    Gate.held_releaseClosed_of_isClosed hclosed, if_pos rfl]

/-- Whatever was done with a gate, the closed connections have noted only hosts on which they own
tickets exactly if each of those that a drain left noted was issued a new one since. It was never
otherwise exactly if no drain has left a host noted, and none has unless some closed connection
was issued a ticket. -/
theorem closedNoteOwned_iff_leavings :
    ((w.run events).gate.ClosedNoteOwned ↔
        ∀ entry ∈ w.collect leavings events, (w.run events).gate.held entry.2 entry.1 ≠ 0)
      ∧ ((∀ before, before <+: events → (w.run before).gate.ClosedNoteOwned) ↔
          w.collect leavings events = [])
      ∧ (w.collect belated events = [] → w.collect leavings events = []) := by
  refine ⟨(leaves_run hnew hroom hknown).closedNoteOwned_iff, ?_,
    leavings_eq_nil_of_belated hnew hroom hknown⟩
  constructor
  · intro halways
    rw [List.eq_nil_iff_forall_not_mem]
    intro entry hentry
    obtain ⟨before, event, later, heq, hleft⟩ := mem_collect_iff.mp hentry
    have hearlier : before ++ [event] <+: events := ⟨later, by simp [heq]⟩
    exact not_closedNoteOwned_of_mem_leavings hnew hroom hknown hearlier hleft (halways _ hearlier)
  · intro hnothing before hearlier
    have hleaves := leaves_run hnew (fun host => (hroom host).of_isPrefix hearlier)
      (collect_eq_nil_of_isPrefix hearlier hknown)
    rw [collect_eq_nil_of_isPrefix hearlier hnothing] at hleaves
    rw [hleaves.closedNoteOwned_iff]
    exact fun entry hentry => by cases hentry

end

/-- A connection is closed before it is issued its only ticket, and then the host is drained. -/
def belatedRun : List SyncEvent :=
  [.step .openConnection, .step (.closeConnection ⟨1⟩), .step (.beginWait ⟨1⟩ ⟨1⟩),
    .step (.drain ⟨1⟩)]

/-- With another ticket the connection owns one again, and has noted two. -/
theorem closedNoteOwned_iff_leavings_of_belatedRun :
    let events := belatedRun ++ [.step (.beginWait ⟨1⟩ ⟨1⟩)]
    loneGate.gate.IsNew ∧ (∀ host, loneGate.HasRoom host events)
      ∧ loneGate.collect strangers events = []
      ∧ loneGate.collect leavings events = [(⟨1⟩, ⟨1⟩)]
      ∧ (loneGate.run events).gate.ClosedNoteOwned
      ∧ ¬ ∀ before, before <+: events → (loneGate.run before).gate.ClosedNoteOwned := by
  intro events
  have hnew : loneGate.gate.IsNew := ⟨rfl, rfl, rfl⟩
  have hroom (host : HostId) : loneGate.HasRoom host events :=
    ⟨Nat.lt_of_le_of_lt (loneGate.length_numbers_le host _) (by decide), by decide +kernel⟩
  have hknown : loneGate.collect strangers events = [] := by decide +kernel
  have hleft : loneGate.collect leavings events = [(⟨1⟩, ⟨1⟩)] := by decide +kernel
  obtain ⟨hnow, halways, -⟩ := closedNoteOwned_iff_leavings hnew hroom hknown
  refine ⟨hnew, hroom, hknown, hleft, hnow.mpr ?_, ?_⟩
  · rw [hleft]
    intro entry hentry
    rw [List.mem_singleton.mp hentry]
    decide +kernel
  · rw [halways, hleft]
    exact List.cons_ne_nil _ _

/-- A closed connection goes on noting a host of which nothing is outstanding. -/
theorem closed_connection_notes_drained_host :
    let g := (loneGate.run belatedRun).gate
    loneGate.gate.IsNew ∧ g.isClosed ⟨1⟩ = true ∧ ⟨1⟩ ∈ g.waitingHosts ⟨1⟩
      ∧ g.outstanding ⟨1⟩ = 0 ∧ ¬ g.ClosedNoteOwned := by
  intro g
  have hclosed : g.isClosed ⟨1⟩ = true := by decide +kernel
  have hnoted : ⟨1⟩ ∈ g.waitingHosts ⟨1⟩ := by decide +kernel
  have hnothing : g.outstanding ⟨1⟩ = 0 := by decide +kernel
  refine ⟨⟨rfl, rfl, rfl⟩, hclosed, hnoted, hnothing, ?_⟩
  intro howned
  obtain ⟨number, hnumber⟩ := howned ⟨1⟩ hclosed ⟨1⟩ hnoted
  have hempty : (g.lane ⟨1⟩).outstanding = ∅ := ExtTreeMap.eq_empty_iff_size_eq_zero.mpr hnothing
  rw [Gate.owner?, hempty] at hnumber
  simp at hnumber

end SyncWorld

end ControlPlane
