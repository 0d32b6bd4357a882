/-
# What observes a ticket

A drain answers for the tickets that were issued for its host before it was called and that are
unobserved in the end. What is completed and what is closed is read off the answers of the gate
there. In terms of the steps that were made it comes to this: no step after the one that issued the
ticket completes it by its host and number, and no step closes its connection once the connection
is open. A step that completes a ticket of a closed connection may come too late and find nothing,
but then the ticket is observed all the same.
-/

import ControlPlane.Proofs.Sync.Drain

namespace ControlPlane

/-- A step completes a ticket by its host and number, whoever it says the ticket belongs to. -/
def SyncEvent.Completes (event : SyncEvent) (host : HostId) (number : UInt64) : Prop :=
  ∃ owner, event = .step (.complete ⟨host, number, owner⟩)

namespace SyncWorld

variable {σ : Type} {w : SyncWorld σ} {host : HostId}

theorem mem_completions_iff {event : SyncEvent} {number : UInt64} :
    (host, number) ∈ w.completions event ↔
      event.Completes host number ∧ (w.gate.owner? host number).isSome = true := by
  constructor
  · intro h
    unfold completions at h
    split at h
    · next ticket =>
      split at h
      · next hconfirmed =>
        obtain ⟨rfl, rfl⟩ := Prod.mk.inj (List.mem_singleton.mp h)
        rw [Gate.complete_fst] at hconfirmed
        exact ⟨⟨ticket.connection, rfl⟩, hconfirmed⟩
      · cases h
    · cases h
  · rintro ⟨⟨owner, rfl⟩, hsome⟩
    rw [completions, Gate.complete_fst, if_pos hsome]
    exact List.mem_singleton.mpr rfl

section

variable (hnew : w.gate.IsNew)
include hnew

/-- While its connection is open, a ticket that a step names is completed by that step at the
latest. -/
theorem mem_collect_completions_of_completes {earlier later : List SyncEvent} {event : SyncEvent}
    {number : UInt64} {owner : ConnectionId} (hroom : w.HasRoom host (earlier ++ event :: later))
    (hissued : ⟨host, number, owner⟩ ∈ w.collect tickets earlier)
    (hopen : (w.run (earlier ++ event :: later)).gate.isClosed owner = false)
    (hcompletes : event.Completes host number) :
    (host, number) ∈ w.collect completions (earlier ++ event :: later) := by
  rw [collect_append, List.mem_append]
  by_cases hdone : (host, number) ∈ w.collect completions earlier
  · exact .inl hdone
  · -- nothing else releases the ticket of an open connection, so it is still pending
    have hkept : (host, number) ∉ w.collect released earlier := by
      rw [mem_collect_released_iff, not_or]
      refine ⟨hdone, fun hdropped => ?_⟩
      have hclosed := isClosed_of_mem_drops hnew hroom.of_append.numbers_lt
        hroom.of_append.opened_lt hdropped hissued
      rw [isClosed_run_append hnew hroom.opened_lt hclosed] at hopen
      cases hopen
    have howner := (owner?_run_eq_some_iff hnew hroom.of_append.numbers_lt _ _).mpr
      ⟨hissued, hkept⟩
    refine .inr (List.mem_append_left _ (mem_completions_iff.mpr ⟨hcompletes, ?_⟩))
    rw [howner, Option.isSome_some]

/-- While its connection is open, a ticket is completed if a step since it was issued names it. -/
theorem mem_collect_completions_iff {earlier later : List SyncEvent} {owner : ConnectionId}
    (hroom : w.HasRoom host (earlier ++ .step (.beginWait host owner) :: later))
    (hopen : (w.run (earlier ++ .step (.beginWait host owner) :: later)).gate.isClosed owner =
      false) :
    (host, (w.run earlier).gate.lastIssued host + 1) ∈
        w.collect completions (earlier ++ .step (.beginWait host owner) :: later) ↔
      ∃ event ∈ later, event.Completes host ((w.run earlier).gate.lastIssued host + 1) := by
  constructor
  · intro h
    rw [collect_append, List.mem_append] at h
    rcases h with hbefore | hafter
    · -- before it is issued there is no ticket of the number
      obtain ⟨other, hissued⟩ := exists_mem_tickets_of_mem_released hnew
        (w.mem_collect_released_iff.mpr (.inl hbefore))
      exact absurd (w.mem_numbers_of_mem_tickets hissued)
        (lastIssued_add_one_notMem_numbers hnew hroom.of_append.numbers_lt)
    · rcases List.mem_append.mp hafter with hnow | hlater
      · cases hnow
      obtain ⟨between, event, rest, rfl, hseen⟩ := mem_collect_iff.mp hlater
      exact ⟨event, by simp, (mem_completions_iff.mp hseen).1⟩
  · rintro ⟨event, hmem, hcompletes⟩
    obtain ⟨between, rest, rfl⟩ := List.append_of_mem hmem
    have hsplit : earlier ++ .step (.beginWait host owner) :: (between ++ event :: rest) =
        (earlier ++ .step (.beginWait host owner) :: between) ++ event :: rest := by simp
    rw [hsplit] at hroom hopen ⊢
    have hissued : ⟨host, (w.run earlier).gate.lastIssued host + 1, owner⟩ ∈
        w.collect tickets (earlier ++ .step (.beginWait host owner) :: between) :=
      mem_collect_iff.mpr ⟨earlier, _, between, rfl, List.mem_singleton.mpr rfl⟩
    exact mem_collect_completions_of_completes hnew hroom hissued hopen hcompletes

/-- A ticket is unobserved if a step before the call issued it, no step since completes it and no
step closes its connection. -/
theorem mem_unobserved_iff_steps {before after : List SyncEvent}
    (hroom : w.HasRoom host (before ++ after)) {number : UInt64} {owner : ConnectionId} :
    ⟨host, number, owner⟩ ∈ w.unobserved host before after ↔
      ¬ w.Closes (before ++ after) owner
      ∧ ∃ earlier later, before = earlier ++ .step (.beginWait host owner) :: later
        ∧ number = (w.run earlier).gate.lastIssued host + 1
        ∧ ∀ event ∈ later ++ after, ¬ event.Completes host number := by
  rw [unobserved, List.mem_filter, decide_eq_true_eq, ← isClosed_run_iff hnew hroom.opened_lt,
    Bool.not_eq_true]
  constructor
  · rintro ⟨hissued, -, hpending, hopen⟩
    obtain ⟨earlier, event, later, rfl, hticket⟩ := mem_collect_iff.mp hissued
    obtain rfl : event = .step (.beginWait host owner) := eq_of_mem_tickets_event _ hticket
    obtain rfl : number = (w.run earlier).gate.lastIssued host + 1 :=
      (SyncTicket.mk.inj (List.mem_singleton.mp hticket)).2.1
    refine ⟨hopen, earlier, later, rfl, rfl, fun event hmem hcompletes => hpending ?_⟩
    rw [List.append_assoc, List.cons_append] at hroom hopen ⊢
    exact (mem_collect_completions_iff hnew hroom hopen).mpr ⟨event, hmem, hcompletes⟩
  · rintro ⟨hopen, earlier, later, rfl, rfl, hpending⟩
    refine ⟨mem_collect_iff.mpr ⟨earlier, _, later, rfl, List.mem_singleton.mpr rfl⟩, rfl,
      fun hcompleted => ?_, hopen⟩
    rw [List.append_assoc, List.cons_append] at hroom hopen hcompleted
    obtain ⟨event, hmem, hcompletes⟩ :=
      (mem_collect_completions_iff hnew hroom hopen).mp hcompleted
    exact hpending event hmem hcompletes

/-- A drain has drained exactly if, for every ticket issued for its host before the call, a step
since the ticket was issued completes it or some step closes its connection. -/
theorem drainBeside_eq_drained_iff {before : List SyncEvent}
    {steps : List (SyncEvent × List HostId)}
    (hroom : w.HasRoom host (before ++ steps.map Prod.fst)) :
    (w.run before).drainBeside host steps = .drained ↔
      ∀ earlier later owner, before = earlier ++ .step (.beginWait host owner) :: later →
        (∃ event ∈ later ++ steps.map Prod.fst,
          event.Completes host ((w.run earlier).gate.lastIssued host + 1))
        ∨ w.Closes (before ++ steps.map Prod.fst) owner := by
  have hdrained : (w.run before).drainBeside host steps = .drained ↔
      w.unobserved host before (steps.map Prod.fst) = [] := by
    rw [drainBeside_eq_outcomeOf hnew hroom, outcomeOf]
    split
    · next hzero => simp [List.eq_nil_of_length_eq_zero hzero]
    · next hsome => simp [List.length_eq_zero_iff.not.mp hsome]
  rw [hdrained, List.eq_nil_iff_forall_not_mem]
  constructor
  · intro hnone earlier later owner hbefore
    by_contra hneither
    obtain ⟨hpending, hopen⟩ := not_or.mp hneither
    refine hnone _ ((mem_unobserved_iff_steps hnew hroom).mpr
      ⟨hopen, earlier, later, hbefore, rfl, fun event hmem hcompletes => hpending ?_⟩)
    exact ⟨event, hmem, hcompletes⟩
  · rintro hall ⟨other, number, owner⟩ hticket
    obtain rfl : other = host := (of_decide_eq_true (List.mem_filter.mp hticket).2).1
    obtain ⟨hopen, earlier, later, hbefore, rfl, hpending⟩ :=
      (mem_unobserved_iff_steps hnew hroom).mp hticket
    rcases hall earlier later owner hbefore with ⟨event, hmem, hcompletes⟩ | hclosed
    · exact hpending event hmem hcompletes
    · exact hopen hclosed

end

end SyncWorld

end ControlPlane
