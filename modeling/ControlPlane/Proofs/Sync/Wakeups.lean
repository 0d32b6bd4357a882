/-
# Whom the closing of a connection wakes

A connection notes for each host how many tickets it holds there, and when it closes, the notes
alone decide which lanes are woken. A drain that waits looks again only when its lane is woken,
so a wrong note would leave it asleep. The notes of an open connection are right: they are the
numbers of outstanding tickets it owns, whatever tickets are made up for completion, since what
is debited is the owner that the lane has recorded.

A drain has nothing left to wait for when no ticket up to its snapshot has an open owner. A step
that brings this about wakes the lane: it completes the last such ticket, or it closes its owner.
-/

import ControlPlane.Proofs.Cache.Statistics
import ControlPlane.Proofs.Sync.Drain

namespace ControlPlane

open Std (ExtTreeMap)

namespace Connection

/-- A number as a connection notes it: nothing is noted of none. -/
def note (count : Nat) : Option Nat :=
  if count = 0 then none else some count

theorem isSome_note_iff {count : Nat} : (note count).isSome = true ↔ count ≠ 0 := by
  by_cases hzero : count = 0 <;> simp [note, hzero]

theorem waiting_release (c : Connection) (host other : HostId) :
    (c.release host).waiting[other]? =
      if host = other then c.waiting[other]?.bind fun count => note (count - 1)
      else c.waiting[other]? := by
  simp only [release, ExtTreeMap.getElem?_alter, Std.LawfulEqOrd.compare_eq_iff_eq]
  by_cases heq : host = other
  · subst heq
    rw [if_pos rfl, if_pos rfl]
    rcases c.waiting[host]? with _ | _ | _ | n <;> rfl
  · rw [if_neg heq, if_neg heq]

end Connection

namespace Gate

open Connection (note isSome_note_iff)

/-- How many outstanding tickets of a host a connection owns. -/
def held (g : Gate) (host : HostId) (connection : ConnectionId) : Nat :=
  (g.lane host).outstanding.toList.countP fun ticket => ticket.2 = connection

/-- What a connection has noted of its tickets on a host. -/
def noted? (g : Gate) (host : HostId) (connection : ConnectionId) : Option Nat :=
  g.connections[connection]?.bind fun c => c.waiting[host]?

/-- The notes of every connection that is not closed are right. -/
def Bookkept (g : Gate) : Prop :=
  ∀ connection host, g.isClosed connection = false →
    g.noted? host connection = note (g.held host connection)

variable {g : Gate} {m : Metrics} {host other : HostId} {connection owner : ConnectionId}

theorem held_ne_zero_iff :
    g.held host connection ≠ 0 ↔ ∃ number, g.owner? host number = some connection := by
  rw [held, ← Nat.pos_iff_ne_zero, List.countP_pos_iff]
  constructor
  · intro h
    obtain ⟨⟨number, owner⟩, hmem, howner⟩ := h
    obtain rfl : owner = connection := of_decide_eq_true howner
    exact ⟨number, ExtTreeMap.mem_toList_iff_getElem?_eq_some.mp hmem⟩
  · intro h
    obtain ⟨number, hnumber⟩ := h
    exact ⟨(number, connection), ExtTreeMap.mem_toList_iff_getElem?_eq_some.mpr hnumber,
      decide_eq_true rfl⟩

/-! ## What the operations do to tickets held -/

theorem held_beginWait (hfree : g.owner? host (g.lastIssued host + 1) = none) :
    (g.beginWait m host owner).2.1.held other connection =
      g.held other connection + if host = other ∧ owner = connection then 1 else 0 := by
  simp only [held, lane_beginWait]
  by_cases hhost : host = other
  · subst hhost
    have hcount := countP_insert (g.lane host).outstanding (g.lastIssued host + 1) owner
      fun ticket => ticket.2 = connection
    rw [show (g.lane host).outstanding[g.lastIssued host + 1]? = none from hfree] at hcount
    rw [if_pos rfl]
    by_cases howner : owner = connection <;> simpa [howner] using hcount
  · simp [hhost]

/-- Completing a ticket takes it from the connection that owns it. -/
theorem held_complete (g : Gate) (m : Metrics) (ticket : SyncTicket) (other : HostId)
    (connection : ConnectionId) :
    (g.complete m ticket).2.1.held other connection
        + (if ticket.host = other ∧ g.owner? ticket.host ticket.sequence = some connection
            then 1 else 0) =
      g.held other connection := by
  simp only [held, lane_complete]
  by_cases hhost : ticket.host = other
  · subst hhost
    have hcount := countP_erase (g.lane ticket.host).outstanding ticket.sequence
      fun ticket => ticket.2 = connection
    rw [← hcount, owner?]
    cases howner : (g.lane ticket.host).outstanding[ticket.sequence]? with
    | none => simp
    | some owner => by_cases heq : owner = connection <;> simp [heq]
  · simp [hhost]

@[simp]
theorem held_advance : (g.advance host).2.held other connection = g.held other connection := by
  simp only [held, lane_advance]
  split <;> rfl

theorem held_advanceAll {hosts : List HostId} (hnodup : hosts.Nodup) :
    (g.advanceAll hosts).2.held other connection = g.held other connection := by
  simp only [held, g.lane_advanceAll hnodup]
  split <;> rfl

/-- What a drain drops is not of open connections. -/
theorem held_releaseClosed (hopen : g.isClosed connection = false) :
    (g.releaseClosed m host).1.held other connection = g.held other connection := by
  simp only [held, lane_releaseClosed]
  split
  · rw [ExtTreeMap.toList_filter, List.countP_filter]
    refine List.countP_congr fun ticket _ => ?_
    simp only [Bool.and_eq_true, decide_eq_true_eq, and_iff_left_iff_imp]
    rintro rfl
    rw [hopen]
    rfl
  · rfl

/-! ## What the operations do to notes -/

theorem noted?_openConnection :
    g.openConnection.2.noted? host connection =
      if ⟨g.nextConnection⟩ = connection then none else g.noted? host connection := by
  simp only [noted?, openConnection, getElem?_insert_eq_ite]
  split
  · simp
  · rfl

/-- Closing a connection leaves the notes of those that are open afterwards. -/
theorem noted?_closeConnection (hopen : (g.closeConnection owner).isClosed connection = false) :
    (g.closeConnection owner).noted? host connection = g.noted? host connection := by
  simp only [noted?, closeConnection, ExtTreeMap.getElem?_modify, Std.LawfulEqOrd.compare_eq_iff_eq]
  by_cases heq : owner = connection
  · subst heq
    rw [isClosed_closeConnection, Bool.or_eq_false_iff] at hopen
    have hunknown : owner ∉ g.connections := by
      rw [← ExtTreeMap.contains_iff_mem, Bool.not_eq_true]
      simpa using hopen.2
    simp [ExtTreeMap.getElem?_eq_none hunknown]
  · rw [if_neg heq]

theorem noted?_beginWait (hknown : owner ∈ g.connections) :
    (g.beginWait m host owner).2.1.noted? other connection =
      if host = other ∧ owner = connection then some ((g.noted? other connection).getD 0 + 1)
      else g.noted? other connection := by
  simp only [noted?, beginWait, ExtTreeMap.getElem?_modify, Std.LawfulEqOrd.compare_eq_iff_eq]
  by_cases heq : owner = connection
  · subst heq
    obtain ⟨c, hc⟩ := Option.isSome_iff_exists.mp (ExtTreeMap.isSome_getElem?_iff_mem.mpr hknown)
    simp only [hc, if_true, and_true, Option.map_some, Option.bind_some, ExtTreeMap.getElem?_alter,
      Std.LawfulEqOrd.compare_eq_iff_eq]
    split
    · next hhost => rw [hhost]
    · rfl
  · simp [heq]

/-- The owner of a completed ticket notes one less, whatever the ticket says. -/
theorem noted?_complete {ticket : SyncTicket}
    (howner : g.owner? ticket.host ticket.sequence = some owner) :
    (g.complete m ticket).2.1.noted? other connection =
      if ticket.host = other ∧ owner = connection then
        (g.noted? other connection).bind fun count => note (count - 1)
      else g.noted? other connection := by
  have hcomplete : (g.complete m ticket).2.1.connections =
      g.connections.modify owner (·.release ticket.host) := by
    rw [complete, howner]
  simp only [noted?, hcomplete, ExtTreeMap.getElem?_modify, Std.LawfulEqOrd.compare_eq_iff_eq]
  by_cases heq : owner = connection
  · subst heq
    rw [if_pos rfl]
    cases g.connections[owner]? with
    | none => simp
    | some c =>
        simp only [Option.map_some, Option.bind_some, Connection.waiting_release, and_true]
  · simp [heq]

theorem noted?_of_connections_eq {g' : Gate} (h : g'.connections = g.connections) :
    g'.noted? host connection = g.noted? host connection := by
  rw [noted?, noted?, h]

/-! ## Bookkeeping -/

theorem IsNew.bookkept (h : g.IsNew) : g.Bookkept := by
  intro connection host _
  have hlane : g.lane host = {} := by
    rw [lane, h.lanes_eq]
    rfl
  rw [noted?, h.connections_eq, held, hlane]
  rfl

namespace Bookkept

variable (h : g.Bookkept)
include h

/-- An operation that changes neither the connections nor what is held of open ones. -/
theorem of_eq {g' : Gate} (hconnections : g'.connections = g.connections)
    (hheld : ∀ connection host, g.isClosed connection = false →
      g'.held host connection = g.held host connection) : g'.Bookkept := by
  intro connection host hopen
  have hopen' : g.isClosed connection = false := by
    rwa [isClosed, ← hconnections]
  rw [noted?_of_connections_eq hconnections, hheld connection host hopen', h connection host hopen']

theorem openConnection (hfresh : ⟨g.nextConnection⟩ ∉ g.connections) :
    g.openConnection.2.Bookkept := by
  intro connection host hopen
  have hheld : g.openConnection.2.held host connection = g.held host connection := rfl
  rw [noted?_openConnection, hheld]
  split
  · next heq =>
    -- nobody has noted anything of a connection that is not known, so it holds nothing
    subst heq
    have hunknown := ExtTreeMap.getElem?_eq_none hfresh
    have hnote := h ⟨g.nextConnection⟩ host (by rw [isClosed, hunknown]; rfl)
    rw [← hnote, noted?, hunknown]
    rfl
  · next hne =>
    rw [isClosed_openConnection, decide_eq_false hne, Bool.not_false, Bool.true_and] at hopen
    exact h connection host hopen

theorem closeConnection (connection : ConnectionId) : (g.closeConnection connection).Bookkept := by
  intro other host hopen
  have hheld : (g.closeConnection connection).held host other = g.held host other := rfl
  have hopen' := hopen
  rw [isClosed_closeConnection, Bool.or_eq_false_iff] at hopen'
  rw [noted?_closeConnection hopen, hheld, h other host hopen'.1]

theorem beginWait (hknown : owner ∈ g.connections)
    (hfree : g.owner? host (g.lastIssued host + 1) = none) :
    (g.beginWait m host owner).2.1.Bookkept := by
  intro connection other hopen
  rw [isClosed_beginWait] at hopen
  rw [noted?_beginWait hknown, held_beginWait hfree, h connection other hopen]
  by_cases hhere : host = other ∧ owner = connection
  · rw [if_pos hhere, if_pos hhere]
    by_cases hzero : g.held other connection = 0 <;> simp [note, hzero]
  · rw [if_neg hhere, if_neg hhere, Nat.add_zero]

theorem complete (ticket : SyncTicket) : (g.complete m ticket).2.1.Bookkept := by
  cases howner : g.owner? ticket.host ticket.sequence with
  | none =>
      have hsame : (g.complete m ticket).2.1 = g := by
        rw [Gate.complete, howner]
      rw [hsame]
      exact h
  | some owner =>
      intro connection other hopen
      rw [isClosed_complete] at hopen
      rw [noted?_complete howner, h connection other hopen,
        ← g.held_complete m ticket other connection, howner]
      by_cases hhere : ticket.host = other ∧ owner = connection
      · rw [if_pos hhere, if_pos ⟨hhere.1, congrArg some hhere.2⟩]
        simp [note]
      · have hnot : ¬ (ticket.host = other ∧ some owner = some connection) := by
          rwa [Option.some.injEq]
        rw [if_neg hhere, if_neg hnot, Nat.add_zero]

omit h in
theorem mem_waitingHosts_iff :
    host ∈ g.waitingHosts connection ↔ (g.noted? host connection).isSome := by
  rw [waitingHosts, noted?]
  cases g.connections[connection]? with
  | none => simp
  | some c => simp

/-- An open connection has noted exactly the hosts on which it owns tickets. -/
theorem mem_waitingHosts_iff_owns (hopen : g.isClosed connection = false) :
    host ∈ g.waitingHosts connection ↔ ∃ number, g.owner? host number = some connection := by
  rw [mem_waitingHosts_iff, h connection host hopen, isSome_note_iff, held_ne_zero_iff]

/-- Closing a connection wakes exactly the lanes in which it owns a ticket. -/
theorem mem_wakes_closeConnection_iff (hopen : g.isClosed connection = false) :
    host ∈ (GateStep.closeConnection connection).wakes g ↔
      ∃ number, g.owner? host number = some connection := by
  have hlane (howns : ∃ number, g.owner? host number = some connection) : host ∈ g.lanes := by
    obtain ⟨number, hnumber⟩ := howns
    by_contra hunknown
    rw [owner?, g.lane_of_not_mem hunknown] at hnumber
    simp at hnumber
  rw [GateStep.wakes, hopen, if_neg Bool.false_ne_true, List.mem_filter,
    h.mem_waitingHosts_iff_owns hopen, ExtTreeMap.contains_iff_mem]
  exact and_iff_left_of_imp hlane

end Bookkept

end Gate

namespace SyncWorld

variable {σ : Type} {w : SyncWorld σ} {events : List SyncEvent} {event : SyncEvent}

/-- The connection to which a ticket is issued although it was never opened. To have a connection
is to have opened it, so no caller does that. -/
def strangers (w : SyncWorld σ) : SyncEvent → List ConnectionId
  | .step (.beginWait _ connection) =>
      if connection ∈ w.gate.connections then [] else [connection]
  | _ => []

/-- Every event leaves the notes of open connections right. -/
theorem bookkept_next (h : w.gate.Bookkept)
    (hfresh : ∀ connection ∈ w.opened event, connection ∉ w.gate.connections)
    (hfree : ∀ host, w.gate.owner? host (w.gate.lastIssued host + 1) = none)
    (hknown : w.strangers event = []) : (w.next event).gate.Bookkept := by
  induction event using SyncEvent.byEffect with
  | opened => exact h.openConnection (hfresh _ (List.mem_singleton.mpr rfl))
  | closed connection => exact h.closeConnection connection
  | issued host connection =>
      have hmem : connection ∈ w.gate.connections := by
        by_contra hunknown
        rw [strangers, if_neg hunknown] at hknown
        cases hknown
      exact h.beginWait (m := w.metrics) hmem (hfree host)
  | completed ticket => exact h.complete ticket
  | advanced host => exact h.of_eq rfl fun _ _ _ => Gate.held_advance
  | announced event =>
      rw [gate_next_announce]
      refine h.of_eq ?_ fun _ _ _ => Gate.held_advanceAll (nodup_toList_set event.affectedHosts)
      rw [Gate.advanceAll_snd]
  | drained event host hdrained =>
      rw [w.gate_next_of_drained hdrained]
      exact h.of_eq rfl fun _ _ hopen => Gate.held_releaseClosed hopen

/-- A ticket that is awaited and no longer is after an event has its lane woken by it. -/
theorem exists_wakes_of_awaited? (h : w.gate.Bookkept)
    (hfresh : ∀ connection ∈ w.opened event, connection ∉ w.gate.connections) {host : HostId}
    {number : UInt64} {owner : ConnectionId} (hbefore : w.gate.awaited? host number = some owner)
    (hafter : (w.next event).gate.awaited? host number = none) :
    ∃ step, event = .step step ∧ host ∈ step.wakes w.gate := by
  -- most events leave it awaited, against the assumption
  have hchanged : (w.next event).gate.awaited? host number ≠ w.gate.awaited? host number := by
    rw [hbefore, hafter]
    exact (Option.some_ne_none owner).symm
  obtain ⟨howner, hopen⟩ := Gate.awaited?_eq_some_iff.mp hbefore
  induction event using SyncEvent.byEffect with
  | opened =>
      refine absurd (Gate.awaited?_openConnection_of_fresh ?_ host number) hchanged
      by_contra hclosed
      exact hfresh _ (List.mem_singleton.mpr rfl)
        (Gate.mem_connections_of_isClosed _ (Bool.not_eq_false _ ▸ hclosed))
  | closed connection =>
      rw [gate_next_close, Gate.awaited?_closeConnection, hbefore] at hafter
      have hcloses : connection = owner := by
        by_contra hne
        simp [hne] at hafter
      subst hcloses
      exact ⟨_, rfl, (h.mem_wakes_closeConnection_iff hopen).mpr ⟨number, howner⟩⟩
  | issued other connection =>
      rw [gate_next_issue, Gate.awaited?_beginWait] at hchanged
      by_cases heq : other = host
      · exact ⟨_, rfl, List.mem_singleton.mpr heq.symm⟩
      · exact absurd (if_neg fun hboth => heq hboth.1) hchanged
  | completed ticket =>
      rw [gate_next_complete, Gate.awaited?_complete] at hchanged
      by_cases heq : ticket.host = host ∧ ticket.sequence = number
      · obtain ⟨rfl, rfl⟩ := heq
        refine ⟨_, rfl, ?_⟩
        rw [GateStep.wakes, howner]
        exact List.mem_singleton.mpr rfl
      · exact absurd (if_neg heq) hchanged
  | advanced other => exact absurd (Gate.awaited?_advance ..) hchanged
  | announced event =>
      exact absurd (Gate.awaited?_advanceAll _ (nodup_toList_set event.affectedHosts) ..) hchanged
  | drained event other hdrained =>
      rw [w.gate_next_of_drained hdrained, Gate.awaited?_releaseClosed] at hchanged
      exact absurd rfl hchanged

/-! ## Runs on a new gate -/

section

variable (hnew : w.gate.IsNew)
include hnew

theorem bookkept_run (hroom : ∀ host, w.HasRoom host events)
    (hknown : w.collect strangers events = []) : (w.run events).gate.Bookkept := by
  induction events using List.reverseRecOn with
  | nil => exact hnew.bookkept
  | append_singleton events event ih =>
      have hbefore (host : HostId) : w.HasRoom host events := (hroom host).of_append
      rw [collect_concat, List.append_eq_nil_iff] at hknown
      rw [run_concat]
      refine bookkept_next (ih hbefore hknown.1) (fun connection hopened => ?_) (fun host => ?_)
        hknown.2
      · exact not_mem_connections_of_mem_opened hnew (hroom ⟨0⟩).opened_lt hopened
      · exact owner?_lastIssued_add_one hnew (hbefore host).numbers_lt

/-- Whatever was done with a gate, an open connection has noted for each host how many tickets it
owns there, and its closing wakes the lanes of just these hosts. An event after which no ticket of
a host up to some number has an open owner any more is a step that wakes the lane of the host. -/
theorem notes_and_wakeups (hroom : ∀ host, w.HasRoom host (events ++ [event]))
    (hknown : w.collect strangers events = []) :
    let g := (w.run events).gate
    (∀ connection c, g.connections[connection]? = some c → c.isClosed = false → ∀ host,
        c.waiting[host]? = Connection.note (g.held host connection)
        ∧ (host ∈ g.waitingHosts connection ↔ ∃ number, g.owner? host number = some connection)
        ∧ (host ∈ (GateStep.closeConnection connection).wakes g ↔
          ∃ number, g.owner? host number = some connection))
    ∧ ∀ host snapshot, (∃ number ≤ snapshot, g.awaited? host number ≠ none) →
      (∀ number ≤ snapshot, (w.run (events ++ [event])).gate.awaited? host number = none) →
      ∃ step, event = .step step ∧ host ∈ step.wakes g := by
  have hbookkept := bookkept_run hnew (fun host => (hroom host).of_append) hknown
  constructor
  · intro connection c hc hopen host
    have hopen' : (w.run events).gate.isClosed connection = false := by
      rw [Gate.isClosed, hc, Option.any_some, hopen]
    have hnote := hbookkept connection host hopen'
    rw [Gate.noted?, hc, Option.bind_some] at hnote
    exact ⟨hnote, hbookkept.mem_waitingHosts_iff_owns hopen',
      hbookkept.mem_wakes_closeConnection_iff hopen'⟩
  · intro host snapshot hbefore hafter
    obtain ⟨number, hle, hawaited⟩ := hbefore
    obtain ⟨owner, howner⟩ := Option.ne_none_iff_exists'.mp hawaited
    rw [run_concat] at hafter
    refine exists_wakes_of_awaited? hbookkept (fun connection hopened => ?_) howner
      (hafter number hle)
    exact not_mem_connections_of_mem_opened hnew (hroom host).opened_lt hopened

end

/-- Two connections are issued a ticket each; the second ticket is completed under the name of the
first connection. -/
def misnamedRun : List SyncEvent :=
  [.step .openConnection, .step .openConnection, .step (.beginWait ⟨1⟩ ⟨1⟩),
    .step (.beginWait ⟨1⟩ ⟨2⟩), .step (.complete ⟨⟨1⟩, 2, ⟨1⟩⟩)]

theorem notes_and_wakeups_of_misnamedRun :
    let closing : SyncEvent := .step (.closeConnection ⟨1⟩)
    let g := (loneGate.run misnamedRun).gate
    loneGate.gate.IsNew ∧ (∀ host, loneGate.HasRoom host (misnamedRun ++ [closing]))
      ∧ loneGate.collect strangers misnamedRun = []
      ∧ some 1 = Connection.note (g.held ⟨1⟩ ⟨1⟩) ∧ none = Connection.note (g.held ⟨1⟩ ⟨2⟩)
      ∧ ∃ step, closing = .step step ∧ ⟨1⟩ ∈ step.wakes g := by
  intro closing g
  have hnew : loneGate.gate.IsNew := ⟨rfl, rfl, rfl⟩
  have hroom (host : HostId) : loneGate.HasRoom host (misnamedRun ++ [closing]) :=
    ⟨Nat.lt_of_le_of_lt (loneGate.length_numbers_le host _) (by decide), by decide +kernel⟩
  have hknown : loneGate.collect strangers misnamedRun = [] := by decide +kernel
  obtain ⟨hnotes, hwakeups⟩ := notes_and_wakeups hnew hroom hknown
  have hfirst : g.connections[(⟨1⟩ : ConnectionId)]? =
      some { waiting := (∅ : ExtTreeMap HostId Nat).insert ⟨1⟩ 1 } := by decide +kernel
  have hsecond : g.connections[(⟨2⟩ : ConnectionId)]? = some {} := by decide +kernel
  refine ⟨hnew, hroom, hknown, (hnotes _ _ hfirst rfl ⟨1⟩).1, (hnotes _ _ hsecond rfl ⟨1⟩).1,
    hwakeups ⟨1⟩ 2 ⟨1, by decide, by decide +kernel⟩ fun number _ => ?_⟩
  -- the one ticket that is left belongs to the connection that was closed
  have hlane : ((loneGate.run (misnamedRun ++ [closing])).gate.lane ⟨1⟩).outstanding =
      (∅ : ExtTreeMap UInt64 ConnectionId).insert 1 ⟨1⟩ := by decide +kernel
  have hclosed : (loneGate.run (misnamedRun ++ [closing])).gate.isClosed ⟨1⟩ = true := by
    decide +kernel
  rw [Gate.awaited?, Gate.owner?, hlane, getElem?_insert_eq_ite]
  split
  · rw [Option.filter_some, hclosed]
    rfl
  · rfl

end SyncWorld

end ControlPlane
