/-
# Connections along a run

Connections are numbered as they are opened. As long as their numbers do not wrap around, no
number is given twice, so a connection that is closed stays closed, and a ticket that a drain
has dropped belongs to a connection that is closed ever after.
-/

import ControlPlane.Proofs.Sync.Numbering

namespace ControlPlane

open Std (ExtTreeMap)

namespace Gate

variable (g : Gate)

theorem mem_connections_of_isClosed {connection : ConnectionId}
    (h : g.isClosed connection = true) : connection ∈ g.connections := by
  obtain ⟨c, hc, -⟩ := (Option.any_eq_true _ _).mp h
  exact ExtTreeMap.isSome_getElem?_iff_mem.mp (Option.isSome_iff_exists.mpr ⟨c, hc⟩)

end Gate

namespace SyncWorld

variable {σ : Type} (w : SyncWorld σ)

/-- An event opens the connection with the next number or none. -/
theorem opened_next (event : SyncEvent) :
    w.opened event = [] ∧ (w.next event).gate.nextConnection = w.gate.nextConnection ∨
      w.opened event = [⟨w.gate.nextConnection⟩] ∧
        (w.next event).gate.nextConnection = w.gate.nextConnection + 1 := by
  induction event using SyncEvent.byEffect with
  | opened => exact .inr ⟨rfl, rfl⟩
  | closed connection => exact .inl ⟨rfl, rfl⟩
  | issued host connection => exact .inl ⟨rfl, rfl⟩
  | completed ticket =>
      refine .inl ⟨rfl, ?_⟩
      rw [gate_next_complete, Gate.complete]
      split <;> rfl
  | advanced host => exact .inl ⟨rfl, rfl⟩
  | announced event =>
      refine .inl ⟨rfl, ?_⟩
      rw [gate_next_announce, Gate.advanceAll_snd]
  | drained event host h =>
      refine .inl ⟨w.opened_of_drained h, ?_⟩
      rw [w.gate_next_of_drained h]
      rfl

theorem nextConnection_next (event : SyncEvent) :
    (w.next event).gate.nextConnection =
      w.gate.nextConnection + UInt64.ofNat (w.opened event).length := by
  rcases w.opened_next event with ⟨hopened, hnext⟩ | ⟨hopened, hnext⟩
  · rw [hopened, hnext]
    exact (UInt64.add_zero _).symm
  · rw [hopened, hnext]
    rfl

/-- Which connection an event opens depends on the next number alone. -/
theorem opened_eq_of_nextConnection_eq {p q : SyncWorld σ}
    (h : p.gate.nextConnection = q.gate.nextConnection) (event : SyncEvent) :
    p.opened event = q.opened event := by
  unfold opened
  split
  · change [(⟨p.gate.nextConnection⟩ : ConnectionId)] = [⟨q.gate.nextConnection⟩]
    rw [h]
  · rfl

/-- A connection is known once it was opened. -/
theorem mem_connections_next_iff (event : SyncEvent) (connection : ConnectionId) :
    connection ∈ (w.next event).gate.connections ↔
      connection ∈ w.gate.connections ∨ connection ∈ w.opened event := by
  induction event using SyncEvent.byEffect with
  | opened =>
      have hopened : w.opened (.step .openConnection) = [⟨w.gate.nextConnection⟩] := rfl
      rw [hopened, List.mem_singleton]
      refine ExtTreeMap.mem_insert.trans ?_
      rw [Std.LawfulEqOrd.compare_eq_iff_eq, eq_comm, or_comm]
  | closed other => simp [opened, Gate.closeConnection, ExtTreeMap.mem_modify]
  | issued host other => simp [opened, Gate.beginWait, ExtTreeMap.mem_modify]
  | completed ticket =>
      rw [gate_next_complete, Gate.complete]
      split <;> simp [opened, ExtTreeMap.mem_modify]
  | advanced host => simp [opened, Gate.advance]
  | announced event =>
      rw [gate_next_announce, Gate.advanceAll_snd]
      simp [opened]
  | drained event host h =>
      rw [w.gate_next_of_drained h, w.opened_of_drained h]
      simp [Gate.releaseClosed]

/-- A connection that is closed stays closed unless its number is given again. -/
theorem isClosed_next {event : SyncEvent} {connection : ConnectionId}
    (hfresh : connection ∉ w.opened event) (h : w.gate.isClosed connection = true) :
    (w.next event).gate.isClosed connection = true := by
  induction event using SyncEvent.byEffect with
  | opened =>
      have hne : (⟨w.gate.nextConnection⟩ : ConnectionId) ≠ connection := by
        intro heq
        exact hfresh (List.mem_singleton.mpr heq.symm)
      rw [gate_next_open, Gate.isClosed_openConnection, h]
      simpa using hne
  | closed other =>
      rw [gate_next_close, Gate.isClosed_closeConnection, h, Bool.true_or]
  | issued host other => rw [gate_next_issue, Gate.isClosed_beginWait, h]
  | completed ticket => rw [gate_next_complete, Gate.isClosed_complete, h]
  | advanced host => rw [gate_next_advance, Gate.isClosed_advance, h]
  | announced event => rw [gate_next_announce, Gate.isClosed_advanceAll, h]
  | drained event host hdrained =>
      rw [w.gate_next_of_drained hdrained, Gate.isClosed_releaseClosed, h]

/-- A connection is closed only by a step that says so. -/
theorem closed_of_isClosed_next {event : SyncEvent} {connection : ConnectionId}
    (h : (w.next event).gate.isClosed connection = true) :
    w.gate.isClosed connection = true
      ∨ event = .step (.closeConnection connection) ∧ connection ∈ w.gate.connections := by
  induction event using SyncEvent.byEffect with
  | opened =>
      rw [gate_next_open, Gate.isClosed_openConnection, Bool.and_eq_true] at h
      exact .inl h.2
  | closed other =>
      rw [gate_next_close, Gate.isClosed_closeConnection, Bool.or_eq_true, Bool.and_eq_true,
        decide_eq_true_eq, ExtTreeMap.contains_iff_mem] at h
      refine h.imp_right ?_
      rintro ⟨rfl, hknown⟩
      exact ⟨rfl, hknown⟩
  | issued host other =>
      rw [gate_next_issue, Gate.isClosed_beginWait] at h
      exact .inl h
  | completed ticket =>
      rw [gate_next_complete, Gate.isClosed_complete] at h
      exact .inl h
  | advanced host => exact .inl h
  | announced event =>
      rw [gate_next_announce, Gate.isClosed_advanceAll] at h
      exact .inl h
  | drained event host hdrained =>
      rw [w.gate_next_of_drained hdrained, Gate.isClosed_releaseClosed] at h
      exact .inl h

/-- A step of a run closes a connection that was opened before. -/
def Closes (events : List SyncEvent) (connection : ConnectionId) : Prop :=
  ∃ earlier later, events = earlier ++ .step (.closeConnection connection) :: later
    ∧ connection ∈ w.collect opened earlier

/-! ## Runs on a new gate -/

variable {w} {events : List SyncEvent} (hnew : w.gate.IsNew)
include hnew

theorem mem_connections_run_iff (connection : ConnectionId) :
    connection ∈ (w.run events).gate.connections ↔ connection ∈ w.collect opened events := by
  induction events using List.reverseRecOn with
  | nil => simp [collect, hnew.connections_eq]
  | append_singleton events event ih =>
      rw [run_concat, mem_connections_next_iff, ih, collect_concat, List.mem_append]

theorem nodup_opened (hroom : (w.collect opened events).length < UInt64.size) :
    (w.collect opened events).Nodup := by
  have hlog := w.collect_of_append (List.map Id.number) rfl (fun _ _ => List.map_append) opened
    events
  -- the number of the last connection is a counter that starts at zero
  have hstep (v : SyncWorld σ) (event : SyncEvent) :
      (v.opened event).map Id.number = [] ∧
          (v.next event).gate.nextConnection - 1 = v.gate.nextConnection - 1 ∨
        (v.opened event).map Id.number = [v.gate.nextConnection - 1 + 1] ∧
          (v.next event).gate.nextConnection - 1 = v.gate.nextConnection - 1 + 1 := by
    rw [UInt64.sub_add_cancel]
    rcases v.opened_next event with ⟨hopened, hnext⟩ | ⟨hopened, hnext⟩
    · exact .inl ⟨by rw [hopened]; rfl, by rw [hnext]⟩
    · exact .inr ⟨by rw [hopened]; rfl, by rw [hnext, UInt64.add_sub_cancel]⟩
  have hzero : w.gate.nextConnection - 1 = 0 := by
    rw [hnew.nextConnection_eq]
    rfl
  rw [← List.length_map, ← hlog] at hroom
  have hnumbers :=
    (w.consecutive_of_counter (fun v => v.gate.nextConnection - 1) hstep hzero hroom).1
  apply List.Nodup.of_map (UInt64.toNat ∘ Id.number)
  rw [← List.map_map, ← hlog, hnumbers]
  exact List.nodup_range'

/-- What is opened was not known before. -/
theorem not_mem_connections_of_mem_opened {event : SyncEvent}
    (hroom : (w.collect opened (events ++ [event])).length < UInt64.size)
    {connection : ConnectionId} (h : connection ∈ (w.run events).opened event) :
    connection ∉ (w.run events).gate.connections := by
  have hnodup := nodup_opened hnew hroom
  rw [collect_concat, List.nodup_append] at hnodup
  intro hknown
  exact hnodup.2.2 connection ((mem_connections_run_iff hnew connection).mp hknown) connection h rfl

/-- What is opened is not closed yet. -/
theorem not_mem_opened_of_isClosed {event : SyncEvent}
    (hroom : (w.collect opened (events ++ [event])).length < UInt64.size)
    {connection : ConnectionId} (h : (w.run events).gate.isClosed connection = true) :
    connection ∉ (w.run events).opened event := by
  intro hopened
  exact not_mem_connections_of_mem_opened hnew hroom hopened
    (Gate.mem_connections_of_isClosed _ h)

/-- A connection that is closed stays closed. -/
theorem isClosed_run_append {later : List SyncEvent}
    (hroom : (w.collect opened (events ++ later)).length < UInt64.size)
    {connection : ConnectionId} (h : (w.run events).gate.isClosed connection = true) :
    (w.run (events ++ later)).gate.isClosed connection = true := by
  induction later using List.reverseRecOn with
  | nil =>
      rw [List.append_nil]
      exact h
  | append_singleton later event ih =>
      rw [← List.append_assoc] at hroom ⊢
      have hclosed := ih (w.length_collect_lt_of_append hroom)
      rw [run_concat]
      exact isClosed_next _ (not_mem_opened_of_isClosed hnew hroom hclosed) hclosed

theorem isClosed_run_iff (hroom : (w.collect opened events).length < UInt64.size)
    {connection : ConnectionId} :
    (w.run events).gate.isClosed connection = true ↔ w.Closes events connection := by
  constructor
  · intro h
    induction events using List.reverseRecOn with
    | nil => simp [Gate.isClosed, hnew.connections_eq] at h
    | append_singleton events event ih =>
        rw [run_concat] at h
        rcases closed_of_isClosed_next _ h with hbefore | ⟨rfl, hknown⟩
        · obtain ⟨earlier, later, rfl, hopened⟩ := ih (w.length_collect_lt_of_append hroom) hbefore
          exact ⟨earlier, later ++ [event], by simp, hopened⟩
        · exact ⟨events, [], rfl, (mem_connections_run_iff hnew connection).mp hknown⟩
  · rintro ⟨earlier, later, rfl, hopened⟩
    have hknown := (mem_connections_run_iff hnew connection).mpr hopened
    rw [List.append_cons] at hroom ⊢
    refine isClosed_run_append hnew hroom ?_
    rw [run_concat, gate_next_close, Gate.isClosed_closeConnection]
    simp [ExtTreeMap.contains_iff_mem.mpr hknown]

theorem exists_isClosed_of_mem_drops {host : HostId}
    (hroom : (w.collect opened events).length < UInt64.size) {number : UInt64}
    (h : (host, number) ∈ w.collect drops events) :
    ∃ owner, ⟨host, number, owner⟩ ∈ w.collect tickets events ∧
      (w.run events).gate.isClosed owner = true := by
  induction events using List.reverseRecOn with
  | nil => cases h
  | append_singleton events event ih =>
      have hlater (owner : ConnectionId)
          (hclosed : (w.run events).gate.isClosed owner = true) :=
        isClosed_run_append hnew hroom hclosed
      rw [collect_concat] at h ⊢
      rcases List.mem_append.mp h with hbefore | hnow
      · obtain ⟨owner, hissued, hclosed⟩ := ih (w.length_collect_lt_of_append hroom) hbefore
        exact ⟨owner, List.mem_append_left _ hissued, hlater owner hclosed⟩
      · unfold drops at hnow
        split at hnow
        · next drained hdrained =>
          obtain ⟨dropped, habandoned, heq⟩ := List.mem_map.mp hnow
          cases heq
          obtain ⟨owner, howner, hclosed⟩ := (Gate.mem_abandoned_iff _).mp habandoned
          exact ⟨owner, List.mem_append_left _ (mem_tickets_of_owner? hnew howner),
            hlater owner hclosed⟩
        · cases hnow

/-- The connection of a ticket that a drain dropped is closed. -/
theorem isClosed_of_mem_drops {host : HostId}
    (hnumbers : (w.collect (numbers host) events).length < UInt64.size)
    (hroom : (w.collect opened events).length < UInt64.size)
    {number : UInt64} {owner : ConnectionId}
    (hdropped : (host, number) ∈ w.collect drops events)
    (hissued : ⟨host, number, owner⟩ ∈ w.collect tickets events) :
    (w.run events).gate.isClosed owner = true := by
  obtain ⟨other, hother, hclosed⟩ := exists_isClosed_of_mem_drops hnew hroom hdropped
  rw [eq_of_mem_tickets hnew hnumbers hissued hother]
  exact hclosed

end SyncWorld

end ControlPlane
