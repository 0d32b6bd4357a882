/-
# No ticket is lost

Every ticket that was ever issued is outstanding, was completed, or was dropped by a drain
because its connection was closed, and it is only one of these. The metrics tell the same: the
gauge of outstanding tickets goes down by one for each ticket released, whichever of the two
looks of a drain releases it, so it never stops at zero early.
-/

import ControlPlane.Proofs.Sync.Numbering
import Mathlib.Algebra.BigOperators.Group.Finset.Piecewise
import Mathlib.Data.FinEnum

namespace ControlPlane

open Std (ExtTreeMap)

instance : Fintype HostId :=
  Fintype.ofEquiv UInt64 ⟨Id.mk, Id.number, fun _ => rfl, fun _ => rfl⟩

/-- A list is as long as its parts together. -/
theorem sum_length_filter {α : Type} (host : α → HostId) (items : List α) :
    ∑ h, (items.filter fun item => host item = h).length = items.length := by
  induction items with
  | nil => simp
  | cons item items ih =>
      simp only [← List.countP_eq_length_filter, List.countP_cons] at ih ⊢
      simp [Finset.sum_add_distrib, ih]

/-! ## Tickets in the metrics -/

/-- What the metrics say of tickets after some were released: the gauge of outstanding tickets is
down by so many, and the count of issued ones is what it was. -/
structure Metrics.Release (m m' : Metrics) (released : Nat) : Prop where
  gauge_eq : (m'.gauge syncOutstandingTickets).toNat =
    (m.gauge syncOutstandingTickets).toNat - released
  counter_eq : m'.counter syncTicketsIssued = m.counter syncTicketsIssued

namespace Metrics.Release

variable {m m' m'' : Metrics} {released released' : Nat}

theorem refl (m : Metrics) : m.Release m 0 := ⟨rfl, rfl⟩

theorem trans (h : m.Release m' released) (h' : m'.Release m'' released') :
    m.Release m'' (released + released') where
  gauge_eq := by rw [h'.gauge_eq, h.gauge_eq, Nat.sub_sub]
  counter_eq := h'.counter_eq.trans h.counter_eq

theorem count (h : m.Release m' released) {name : String} (hname : name ≠ syncTicketsIssued)
    (amount : UInt64) : m.Release (m'.count name amount) released where
  gauge_eq := h.gauge_eq
  counter_eq := by rw [counter_count, if_neg hname, h.counter_eq]

theorem lower : m.Release (m.lower syncOutstandingTickets) 1 where
  gauge_eq := m.toNat_gauge_lower syncOutstandingTickets
  counter_eq := m.counter_lower syncOutstandingTickets syncTicketsIssued

theorem lower_all (released : Nat) :
    m.Release ((List.range released).foldl (fun m _ => m.lower syncOutstandingTickets) m)
      released := by
  induction released with
  | zero => exact refl m
  | succ released ih =>
      rw [List.range_succ, List.foldl_append]
      exact ih.trans lower

end Metrics.Release

namespace Gate

variable {g : Gate} (m : Metrics) (hmetered : g.isMetered = true)
include hmetered

theorem meter_eq (change : Metrics → Metrics) : g.meter m change = change m := by
  rw [meter, hmetered]
  rfl

theorem release_complete (ticket : SyncTicket) :
    m.Release (g.complete m ticket).2.2
      (if (g.owner? ticket.host ticket.sequence).isSome then 1 else 0) := by
  unfold complete
  split
  · next hnone =>
    rw [hnone]
    exact .refl m
  · next owner howner =>
    rw [howner, meter_eq m hmetered]
    exact .lower

theorem release_releaseClosed (host : HostId) :
    m.Release (g.releaseClosed m host).2 (g.abandoned host).length := by
  have hcount : (g.lane host).outstanding.size -
      ((g.lane host).outstanding.filter fun _ owner => !g.isClosed owner).size =
      (g.abandoned host).length := by
    have hsplit := g.outstanding_releaseClosed m host
    simp only [outstanding, lane_releaseClosed, if_true] at hsplit
    omega
  simp only [releaseClosed]
  rw [hcount, meter_eq m hmetered]
  exact .lower_all _

omit hmetered in
@[simp]
theorem abandoned_releaseClosed (host : HostId) :
    (g.releaseClosed m host).1.abandoned host = [] := by
  apply List.eq_nil_iff_forall_not_mem.mpr
  intro number hmem
  obtain ⟨owner, howner, hclosed⟩ := (mem_abandoned_iff _).mp hmem
  rw [owner?_releaseClosed, if_pos rfl, Option.filter_eq_some_iff] at howner
  rw [isClosed_releaseClosed] at hclosed
  simp [hclosed] at howner

theorem release_beginDrain (host : HostId) :
    m.Release (g.beginDrain m host).2.2 (g.abandoned host).length := by
  unfold beginDrain
  split
  · have hwaits : m.Release (m.count Metrics.syncDrainWaits 1) 0 :=
      (Metrics.Release.refl m).count (by decide) 1
    rw [meter_eq m hmetered, ← Nat.zero_add (g.abandoned host).length]
    exact hwaits.trans (release_releaseClosed _ hmetered host)
  · next hunknown =>
    have hnone : g.abandoned host = [] := by
      rw [abandoned, g.lane_of_not_mem (by simpa using hunknown)]
      rfl
    rw [hnone]
    exact .refl m

theorem release_expireDrain (waiter : Waiter) :
    m.Release (g.expireDrain m waiter).2.2 (g.abandoned waiter.host).length := by
  have hrelease := release_releaseClosed m hmetered waiter.host
  simp only [expireDrain]
  split
  · exact hrelease
  · rw [meter_eq]
    · exact hrelease.count (by decide) 1
    · exact hmetered

/-- The second look of a drain finds nothing that the first has left to release. -/
theorem release_awaitDrain (host : HostId) :
    m.Release (g.awaitDrain m host).2.2 (g.abandoned host).length := by
  have hbegin := release_beginDrain m hmetered host
  have hgate := g.gate_beginDrain m host
  have hwaiter (waiter : Waiter) (h : (g.beginDrain m host).1 = some waiter) :
      waiter.host = host := by
    rw [g.beginDrain_fst_eq_some m h]
  rw [awaitDrain]
  rcases hstart : g.beginDrain m host with ⟨waiter?, g', m'⟩
  rw [hstart] at hbegin hgate hwaiter
  obtain rfl : g' = (g.releaseClosed m host).1 := hgate
  cases waiter? with
  | none => exact hbegin
  | some waiter =>
      obtain rfl := hwaiter waiter rfl
      have hmetered' : (g.releaseClosed m waiter.host).1.isMetered = true := hmetered
      have hexpire := release_expireDrain m' hmetered' waiter
      rw [abandoned_releaseClosed] at hexpire
      exact hbegin.trans hexpire

end Gate

namespace SyncWorld

variable {σ : Type} (w : SyncWorld σ)

@[simp]
theorem isMetered_next (event : SyncEvent) : (w.next event).gate.isMetered = w.gate.isMetered := by
  induction event using SyncEvent.byEffect with
  | opened => rfl
  | closed connection => rfl
  | issued host connection => rfl
  | completed ticket =>
      rw [gate_next_complete, Gate.complete]
      split <;> rfl
  | advanced host => rfl
  | announced event => rw [gate_next_announce, Gate.advanceAll_snd]
  | drained event host h => rw [w.gate_next_of_drained h]; rfl

theorem isMetered_run (events : List SyncEvent) :
    (w.run events).gate.isMetered = w.gate.isMetered := by
  induction events generalizing w with
  | nil => rfl
  | cons event events ih => rw [run_cons, ih, isMetered_next]

theorem nodup_released_of_event (event : SyncEvent) : (w.released event).Nodup := by
  cases hdrained : event.drained? with
  | none =>
      have hdrops : w.drops event = [] := by
        rw [drops, hdrained]
      rw [released, hdrops, List.append_nil]
      unfold completions
      split
      · split <;> simp
      · exact List.nodup_nil
  | some host =>
      rw [w.released_of_drained hdrained]
      refine List.Nodup.map (fun _ _ h => (Prod.mk.inj h).2) ?_
      exact Gate.nodup_keys _

section

variable {w} (hmetered : w.gate.isMetered = true)
include hmetered

/-- Whatever event releases tickets, the metrics tell how many. -/
theorem release_next {event : SyncEvent} (hnone : w.tickets event = []) :
    w.metrics.Release (w.next event).metrics (w.released event).length := by
  cases event with
  | step step =>
      cases step with
      | openConnection => exact .refl _
      | closeConnection connection => exact .refl _
      | beginWait host connection => cases hnone
      | complete ticket =>
          have hrelease := Gate.release_complete w.metrics hmetered ticket
          rw [released_complete]
          split
          · next hsome =>
            rw [if_pos hsome] at hrelease
            exact hrelease
          · next hnot =>
            rw [if_neg hnot] at hrelease
            exact hrelease
      | advance host => exact .refl _
      | drain host =>
          rw [w.released_of_drained rfl, List.length_map]
          exact Gate.release_awaitDrain w.metrics hmetered host
  | announce event => exact .refl _
  | beginDrain host =>
      rw [w.released_of_drained rfl, List.length_map]
      exact Gate.release_beginDrain w.metrics hmetered host
  | look waiter =>
      rw [w.released_of_drained rfl, List.length_map]
      exact Gate.release_releaseClosed w.metrics hmetered waiter.host
  | expire waiter =>
      rw [w.released_of_drained rfl, List.length_map]
      exact Gate.release_expireDrain w.metrics hmetered waiter

/-- A ticket that is issued is counted twice, once for good. -/
theorem metrics_issue (host : HostId) (connection : ConnectionId) :
    (w.next (.step (.beginWait host connection))).metrics =
      (w.metrics.count Metrics.syncTicketsIssued 1).raise Metrics.syncOutstandingTickets := by
  change w.gate.meter w.metrics
    (fun m => (m.count Metrics.syncTicketsIssued 1).raise Metrics.syncOutstandingTickets) = _
  rw [Gate.meter_eq w.metrics hmetered]

end

/-! ## Runs on a new gate -/

section

variable {w : SyncWorld σ} {events : List SyncEvent} (hnew : w.gate.IsNew)
  (hroom : ∀ host, (w.collect (numbers host) events).length < UInt64.size)
include hnew hroom

/-- Nothing is released twice. -/
theorem nodup_released : (w.collect released events).Nodup := by
  induction events using List.reverseRecOn with
  | nil => exact List.nodup_nil
  | append_singleton events event ih =>
      have hfewer (host : HostId) : (w.collect (numbers host) events).length < UInt64.size :=
        w.length_collect_lt_of_append (hroom host)
      rw [collect_concat]
      refine List.nodup_append.mpr ⟨ih hfewer, ?_, ?_⟩
      · exact (w.run events).nodup_released_of_event event
      · intro key hbefore key' hnow heq
        subst heq
        obtain ⟨owner, howner⟩ := exists_owner?_of_mem_released _ hnow
        exact ((owner?_run_eq_some_iff hnew (hfewer key.1) key.2 owner).mp howner).2 hbefore

/-- What is outstanding on a host and what was released there make up what was issued. -/
theorem keys_append_released_perm (host : HostId) :
    (((w.run events).gate.lane host).outstanding.keys ++
        ((w.collect released events).filter fun key => key.1 = host).map (·.2)).Perm
      (sequencesOn host (w.collect tickets events)) := by
  have howner := owner?_run_eq_some_iff hnew (hroom host)
  have hreleased (number : UInt64) :
      number ∈ ((w.collect released events).filter fun key => key.1 = host).map (·.2) ↔
        (host, number) ∈ w.collect released events := by
    simp
  -- neither list repeats a number, so it is enough that they have the same numbers
  refine (List.perm_ext_iff_of_nodup ?_ ?_).mpr ?_
  · refine List.nodup_append.mpr ⟨Gate.nodup_keys _, ?_, ?_⟩
    · refine List.Nodup.map_on ?_ ((nodup_released hnew hroom).filter _)
      intro key hmem key' hmem' heq
      have hhost : key.1 = host := of_decide_eq_true (List.mem_filter.mp hmem).2
      have hhost' : key'.1 = host := of_decide_eq_true (List.mem_filter.mp hmem').2
      exact Prod.ext (hhost.trans hhost'.symm) heq
    · intro number hheld number' hgone heq
      subst heq
      obtain ⟨owner, hheld⟩ := (Gate.mem_keys_outstanding_iff _).mp hheld
      exact ((howner number owner).mp hheld).2 ((hreleased number).mp hgone)
  · exact nodup_sequences hnew (hroom host)
  · intro number
    rw [List.mem_append, Gate.mem_keys_outstanding_iff, hreleased, mem_sequencesOn_iff]
    constructor
    · intro h
      rcases h with ⟨owner, h⟩ | h
      · exact ⟨owner, mem_tickets_of_owner? hnew h⟩
      · exact exists_mem_tickets_of_mem_released hnew h
    · intro h
      obtain ⟨owner, h⟩ := h
      by_cases hgone : (host, number) ∈ w.collect released events
      · exact .inr hgone
      · exact .inl ⟨owner, (howner number owner).mpr ⟨h, hgone⟩⟩

/-- Nothing is lost and nothing is invented. -/
theorem sum_outstanding_add_released :
    ∑ host, (w.run events).gate.outstanding host + (w.collect released events).length =
      (w.collect tickets events).length := by
  have hhost (host : HostId) := (keys_append_released_perm hnew hroom host).length_eq
  simp only [sequencesOn, List.length_append, List.length_map, ExtTreeMap.length_keys] at hhost
  rw [← sum_length_filter Prod.fst, ← sum_length_filter SyncTicket.host, ← Finset.sum_add_distrib]
  exact Finset.sum_congr rfl fun host _ => hhost host

variable (hmetered : w.gate.isMetered = true) (hmetrics : w.metrics = {})
  (hissued : (w.collect tickets events).length < UInt64.size)
include hmetered hmetrics hissued

/-- The gauge has gone up once for each ticket issued and down once for each one released. -/
theorem metrics_run :
    ((w.run events).metrics.gauge Metrics.syncOutstandingTickets).toNat +
          (w.collect released events).length =
        (w.collect tickets events).length ∧
      ((w.run events).metrics.counter Metrics.syncTicketsIssued).toNat =
        (w.collect tickets events).length := by
  induction events using List.reverseRecOn with
  | nil =>
      rw [run_nil, hmetrics]
      exact ⟨rfl, rfl⟩
  | append_singleton events event ih =>
      -- the sum shows that the gauge is at least as high as what the event takes off it
      have hsum := sum_outstanding_add_released hnew hroom
      have hmetered' : (w.run events).gate.isMetered = true :=
        (w.isMetered_run events).trans hmetered
      obtain ⟨hgauge, hcounter⟩ := ih (fun host => w.length_collect_lt_of_append (hroom host))
        (w.length_collect_lt_of_append hissued)
      simp only [collect_concat, List.length_append] at hissued hsum ⊢
      rw [run_concat]
      by_cases htickets : (w.run events).tickets event = []
      · have hrelease := release_next hmetered' htickets
        rw [htickets, List.length_nil] at hsum ⊢
        rw [hrelease.gauge_eq, hrelease.counter_eq]
        omega
      · obtain ⟨ticket, hmem⟩ := List.exists_mem_of_ne_nil _ htickets
        obtain rfl := eq_of_mem_tickets_event _ hmem
        rw [tickets_issue] at hissued ⊢
        rw [metrics_issue hmetered', Metrics.gauge_raise_self, Metrics.gauge_count,
          Metrics.counter_raise, Metrics.counter_count, if_pos rfl, UInt64.toNat_add,
          UInt64.toNat_add, UInt64.toNat_one]
        have hreleased : (w.run events).released
            (.step (.beginWait ticket.host ticket.connection)) = [] := rfl
        simp only [UInt64.size, List.length_singleton] at hissued
        simp only [hreleased, List.length_nil, List.length_singleton]
        omega

/-- Whatever is done with a metered gate, its gauge of outstanding tickets is the number of tickets
that are outstanding on all hosts together, and what it counts as issued is these, those
completed and those dropped. No ticket is released twice, and only tickets are. -/
theorem tickets_conserved :
    ((w.run events).metrics.gauge Metrics.syncOutstandingTickets).toNat =
        ∑ host, (w.run events).gate.outstanding host ∧
      ((w.run events).metrics.counter Metrics.syncTicketsIssued).toNat =
        ∑ host, (w.run events).gate.outstanding host + (w.collect completions events).length +
          (w.collect drops events).length ∧
      (w.collect completions events ++ w.collect drops events).Nodup ∧
      ∀ key ∈ w.collect completions events ++ w.collect drops events,
        ∃! ticket, ticket ∈ w.collect tickets events ∧ (ticket.host, ticket.sequence) = key := by
  have hsum := sum_outstanding_add_released hnew hroom
  obtain ⟨hgauge, hcounter⟩ := metrics_run hnew hroom hmetered hmetrics hissued
  have hreleased := w.collect_append_perm completions drops events
  have hlength := hreleased.length_eq
  rw [List.length_append] at hlength
  change (w.collect released events).length = _ at hlength
  refine ⟨by omega, by omega, hreleased.nodup_iff.mp (nodup_released hnew hroom), ?_⟩
  intro key hkey
  obtain ⟨owner, howner⟩ := exists_mem_tickets_of_mem_released hnew (hreleased.mem_iff.mpr hkey)
  refine ⟨⟨key.1, key.2, owner⟩, ⟨howner, rfl⟩, ?_⟩
  intro ticket h
  obtain ⟨hticket, rfl⟩ := h
  rw [eq_of_mem_tickets hnew (hroom ticket.host) howner hticket]

end

/-- Three tickets on two hosts: one is completed, and once more in vain; the connection of the
other two is closed, twice, and then one of its hosts is drained, twice. -/
def releasingRun : List SyncEvent :=
  [.step .openConnection, .step .openConnection, .step (.beginWait ⟨1⟩ ⟨1⟩),
    .step (.beginWait ⟨1⟩ ⟨2⟩), .step (.beginWait ⟨2⟩ ⟨1⟩), .step (.complete ⟨⟨1⟩, 2, ⟨7⟩⟩),
    .step (.complete ⟨⟨1⟩, 2, ⟨2⟩⟩), .step (.closeConnection ⟨1⟩),
    .step (.closeConnection ⟨1⟩), .step (.drain ⟨1⟩), .beginDrain ⟨1⟩]

theorem tickets_conserved_of_releasingRun :
    loneGate.gate.IsNew ∧ loneGate.gate.isMetered = true ∧
      loneGate.collect completions releasingRun = [(⟨1⟩, 2)] ∧
      loneGate.collect drops releasingRun = [(⟨1⟩, 1)] ∧
      ((loneGate.run releasingRun).metrics.counter Metrics.syncTicketsIssued).toNat = 3 ∧
      ∑ host, (loneGate.run releasingRun).gate.outstanding host = 1 := by
  have hnew : loneGate.gate.IsNew := ⟨rfl, rfl, rfl⟩
  have hroom (host : HostId) :
      (loneGate.collect (numbers host) releasingRun).length < UInt64.size :=
    (loneGate.length_numbers_le host releasingRun).trans_lt (by decide)
  have hissued : (loneGate.collect tickets releasingRun).length < UInt64.size := by decide +kernel
  obtain ⟨hgauge, -, -, -⟩ := tickets_conserved hnew hroom rfl rfl hissued
  refine ⟨hnew, rfl, by decide +kernel, by decide +kernel, by decide +kernel, ?_⟩
  rw [← hgauge]
  decide +kernel

end SyncWorld

end ControlPlane
