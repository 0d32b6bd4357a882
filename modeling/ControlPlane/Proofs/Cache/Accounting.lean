/-
# The books of the caches

Several caches count in one set of metrics. A run of their operations is written down as a list of
events, one for each operation; from the events follow the books of each cache: how often a key
was asked for, how many computations ended, how many of them stored a value and how many of these
values replaced an older entry, how many entries were dropped.

The counters of a cache agree with its books up to the size of a word. What was stored is still
there, was dropped or was replaced, and this holds of the numbers themselves. A step that changes
one cache changes the counters of the metrics by as much as those of the cache, so that the
metrics have the sums.

A computation is a step that finds nothing to serve and a later step that ends it. Anything may
happen in between, the computation's own operations and those of other callers included, except
that an operation which would have to wait for the computation does not take place.
-/

import ControlPlane.Proofs.Cache.Statistics
import Mathlib.Algebra.BigOperators.Group.Finset.Basic

namespace ControlPlane

open Std (ExtTreeMap)

/-! ## Records and books -/

variable {ι : Type} [DecidableEq ι]

/-- What is written down of one operation of one of several caches. -/
inductive CacheRecord (ι : Type)
  /-- A key was asked for. -/
  | asked (cache : ι)
  /-- A computation ended. It stored a value or failed, in a slot with or without an entry. -/
  | computed (cache : ι) (isStored hadEntry : Bool)
  /-- Entries were dropped, and this many returned as their number. -/
  | dropped (cache : ι) (count : Nat)
  /-- Something that is no concern of the books. -/
  | other

/-- The cache that a record is about. -/
def CacheRecord.cache? {ι : Type} : CacheRecord ι → Option ι
  | .asked cache | .computed cache _ _ | .dropped cache _ => some cache
  | .other => none

/-- The books of one cache. -/
structure CacheBooks where
  calls : Nat := 0
  /-- Computations that have ended, failed ones included. -/
  computations : Nat := 0
  stored : Nat := 0
  /-- Values stored over an older entry. -/
  replaced : Nat := 0
  dropped : Nat := 0

namespace CacheBooks

/-- Enter a record in the books of a cache, if it is about that cache. -/
def enter (i : ι) (b : CacheBooks) : CacheRecord ι → CacheBooks
  | .asked j => if j = i then { b with calls := b.calls + 1 } else b
  | .computed j isStored hadEntry =>
      if j = i then
        { b with
          computations := b.computations + 1
          stored := b.stored + isStored.toNat
          replaced := b.replaced + (isStored && hadEntry).toNat }
      else b
  | .dropped j count => if j = i then { b with dropped := b.dropped + count } else b
  | .other => b

/-- The books of a cache after some records. -/
def ofRecords (records : List (CacheRecord ι)) (i : ι) : CacheBooks :=
  records.foldl (enter i) {}

/-- A record leaves the books of other caches alone. -/
theorem enter_of_ne {i j : ι} (hne : i ≠ j) (b : CacheBooks) {record : CacheRecord ι}
    (habout : record.cache? = some i) : b.enter j record = b := by
  cases record with
  | asked _ => exact if_neg (Option.some.inj habout ▸ hne)
  | computed _ _ _ => exact if_neg (Option.some.inj habout ▸ hne)
  | dropped _ _ => exact if_neg (Option.some.inj habout ▸ hne)
  | other => rfl

theorem ofRecords_concat (records : List (CacheRecord ι)) (record : CacheRecord ι) (i : ι) :
    ofRecords (records ++ [record]) i = (ofRecords records i).enter i record := by
  rw [ofRecords, List.foldl_concat, ofRecords]

end CacheBooks

/-! ## What one operation does to the counters -/

/-- What a cache counts. -/
inductive CacheCounter
  | hits
  | misses
  | evictions
deriving DecidableEq

namespace CacheCounter

/-- The name of a counter in the metrics. -/
def name : CacheCounter → String
  | hits => Metrics.cacheHits
  | misses => Metrics.cacheMisses
  | evictions => Metrics.cacheEvictions

theorem name_injective : Function.Injective name := by
  intro a b h
  cases a <;> cases b <;> first | rfl | exact absurd h (by decide)

end CacheCounter

namespace AccessCache

variable {β ε : Type} {c c' : AccessCache β} {m m' : Metrics} {key : CacheKey}

/-- What a cache has counted itself. -/
def counted (c : AccessCache β) : CacheCounter → UInt64
  | .hits => c.hits
  | .misses => c.misses
  | .evictions => c.evictions

/-- A cache has counted some more, and the metrics with it. -/
structure CountsAlong (c c' : AccessCache β) (m m' : Metrics) : Prop where
  isMetered : c'.isMetered = c.isMetered
  counted (counter : CacheCounter) : ∃ more,
    c'.counted counter = c.counted counter + more
    ∧ m'.counter counter.name = m.counter counter.name + more

/-- A metered cache that counts something counts it along with the metrics. -/
theorem countsAlong_meter (hmetered : c.isMetered = true) (counter : CacheCounter)
    (amount : UInt64) (hmetered' : c'.isMetered = c.isMetered)
    (hcounted : ∀ other, c'.counted other =
      if counter = other then c.counted other + amount else c.counted other) :
    c.CountsAlong c' m (c.meter m counter.name amount) := by
  refine ⟨hmetered', fun other => ?_⟩
  rw [hcounted, meter, if_pos hmetered, Metrics.counter_count]
  by_cases heq : counter = other
  · subst heq
    exact ⟨amount, if_pos rfl, if_pos rfl⟩
  · have hname : counter.name ≠ other.name := fun h => heq (CacheCounter.name_injective h)
    rw [if_neg heq, if_neg hname]
    exact ⟨0, (UInt64.add_zero _).symm, (UInt64.add_zero _).symm⟩

theorem countsAlong_of_counted_eq (hmetered : c'.isMetered = c.isMetered)
    (hcounted : ∀ counter, c'.counted counter = c.counted counter) : c.CountsAlong c' m m :=
  ⟨hmetered, fun counter => ⟨0, by rw [hcounted, UInt64.add_zero], (UInt64.add_zero _).symm⟩⟩

theorem countsAlong_lookup (hmetered : c.isMetered = true) (m : Metrics) (key : CacheKey)
    (now : Tick) : c.CountsAlong (c.lookup m key now).2.1 m (c.lookup m key now).2.2 := by
  cases hpeek : c.peek key now with
  | some value =>
      rw [lookup_of_peek_eq_some hpeek]
      exact countsAlong_meter hmetered .hits 1 rfl (by rintro (_ | _ | _) <;> rfl)
  | none =>
      rw [lookup_of_peek_eq_none hpeek]
      exact countsAlong_meter hmetered .misses 1 rfl (by rintro (_ | _ | _) <;> rfl)

theorem countsAlong_settle (c : AccessCache β) (m : Metrics) (key : CacheKey) (now : Tick)
    (result : Except ε β) : c.CountsAlong (c.settle key now result) m m :=
  countsAlong_of_counted_eq rfl (by rintro (_ | _ | _) <;> rfl)

theorem countsAlong_retain (hmetered : c.isMetered = true) (m : Metrics)
    (keep : CacheKey → CacheSlot β → Bool) :
    c.CountsAlong (c.retain m keep).2.1 m (c.retain m keep).2.2 := by
  simp only [retain]
  rw [recordEvictions]
  split
  · exact countsAlong_of_counted_eq rfl (by rintro (_ | _ | _) <;> rfl)
  · exact countsAlong_meter hmetered .evictions _ rfl (by rintro (_ | _ | _) <;> rfl)

/-! ## What one operation does to the books -/

/-- How many slots computations hold. -/
def heldCount (c : AccessCache β) : Nat :=
  c.slots.toList.countP fun slot => slot.2.isComputing

/-- The counters of a cache and its entries agree with its books. -/
structure Balances (c : AccessCache β) (b : CacheBooks) : Prop where
  calls : c.hits + c.misses = UInt64.ofNat b.calls
  misses : c.misses = UInt64.ofNat (b.computations + c.heldCount)
  evictions : c.evictions = UInt64.ofNat b.dropped
  stored : b.stored = entryCount c.slots + b.dropped + b.replaced

theorem isHeld_of_isComputing {slot : CacheSlot β} (hslot : c.slots[key]? = some slot)
    (hcomputing : slot.isComputing = true) : c.isHeld key = true := by
  rw [isHeld, hslot, Option.any_some, hcomputing]

theorem heldCount_withSlot (c : AccessCache β) (key : CacheKey) (slot : CacheSlot β) :
    (c.withSlot key slot).heldCount + (c.isHeld key).toNat =
      c.heldCount + slot.isComputing.toNat :=
  countP_insert c.slots key slot fun item => item.2.isComputing

theorem entryCount_withSlot (c : AccessCache β) (key : CacheKey) (slot : CacheSlot β) :
    entryCount (c.withSlot key slot).slots + (c.find? key).isSome.toNat =
      entryCount c.slots + slot.entry.isSome.toNat := by
  have hold : (c.find? key).isSome = c.slots[key]?.any fun slot => slot.entry.isSome := by
    rw [find?]
    cases c.slots[key]? <;> rfl
  rw [hold]
  exact countP_insert c.slots key slot fun item => item.2.entry.isSome

theorem heldCount_hold (hfree : c.isHeld key = false) :
    (c.hold key).heldCount = c.heldCount + 1 := by
  have hcount := heldCount_withSlot { c with misses := c.misses + 1 } key
    { c.slots[key]?.getD {} with isComputing := true }
  have hfree' : isHeld { c with misses := c.misses + 1 } key = false := hfree
  rwa [← hold_eq_withSlot, hfree'] at hcount

theorem entryCount_hold (c : AccessCache β) (key : CacheKey) :
    entryCount (c.hold key).slots = entryCount c.slots := by
  have hcount := entryCount_withSlot { c with misses := c.misses + 1 } key
    { c.slots[key]?.getD {} with isComputing := true }
  have hentry : (find? { c with misses := c.misses + 1 } key).isSome =
      (c.slots[key]?.getD {}).entry.isSome := by
    rw [find?]
    cases c.slots[key]? <;> rfl
  rw [← hold_eq_withSlot, hentry] at hcount
  exact Nat.add_right_cancel hcount

theorem heldCount_settle (hheld : c.isHeld key = true) (now : Tick) (result : Except ε β) :
    (c.settle key now result).heldCount + 1 = c.heldCount := by
  obtain ⟨slot, hslot, -⟩ := (Option.any_eq_true _ _).mp hheld
  have hcount (slot : CacheSlot β) := heldCount_withSlot c key slot
  rw [hheld] at hcount
  rw [settle_eq_withSlot hslot]
  exact hcount _

/-- A value that is stored is one entry more, unless it replaces one. -/
theorem entryCount_settle (hheld : c.isHeld key = true) (now : Tick) (result : Except ε β) :
    entryCount (c.settle key now result).slots
        + (result.isOk && (c.find? key).isSome).toNat =
      entryCount c.slots + result.isOk.toNat := by
  obtain ⟨slot, hslot, -⟩ := (Option.any_eq_true _ _).mp hheld
  rw [settle_eq_withSlot hslot]
  cases result with
  | ok value => exact entryCount_withSlot c key _
  | error cause =>
      have hcount := entryCount_withSlot c key { entry := slot.entry }
      have hentry : (c.find? key).isSome = slot.entry.isSome := by
        rw [find?, hslot]
        rfl
      rw [hentry] at hcount
      exact Nat.add_right_cancel hcount

/-- What is left and what is dropped was there. -/
theorem entryCount_retain (c : AccessCache β) (m : Metrics)
    (keep : CacheKey → CacheSlot β → Bool) :
    entryCount (c.retain m keep).2.1.slots + (c.retain m keep).1 = entryCount c.slots := by
  simp only [retain, slots_recordEvictions, entryCount, ExtTreeMap.toList_filter]
  exact (List.countP_eq_countP_filter_add ..).symm

theorem heldCount_retain {keep : CacheKey → CacheSlot β → Bool}
    (hkeep : ∀ (key : CacheKey) (slot : CacheSlot β), c.slots[key]? = some slot →
      slot.isComputing = true → keep key slot = true) (m : Metrics) :
    (c.retain m keep).2.1.heldCount = c.heldCount := by
  simp only [retain, slots_recordEvictions, heldCount, ExtTreeMap.toList_filter,
    List.countP_filter]
  refine List.countP_congr fun item hitem => ?_
  have hslot := ExtTreeMap.mem_toList_iff_getElem?_eq_some.mp hitem
  rw [Bool.and_eq_true, and_iff_left_iff_imp]
  exact hkeep item.1 item.2 hslot

/-- Asking for a free key is one call more. -/
theorem Balances.lookup {b : CacheBooks} (h : c.Balances b) (hfree : c.isHeld key = false)
    (m : Metrics) (now : Tick) :
    (c.lookup m key now).2.1.Balances { b with calls := b.calls + 1 } := by
  have hcalls : c.hits + c.misses + 1 = UInt64.ofNat (b.calls + 1) := by
    rw [h.calls, UInt64.ofNat_add]
    rfl
  cases hpeek : c.peek key now with
  | some value =>
      rw [lookup_of_peek_eq_some hpeek]
      refine ⟨?_, h.misses, h.evictions, h.stored⟩
      rw [← hcalls, UInt64.add_assoc, UInt64.add_assoc, UInt64.add_comm 1]
  | none =>
      rw [lookup_of_peek_eq_none hpeek]
      refine ⟨?_, ?_, h.evictions, ?_⟩
      · rw [← hcalls, UInt64.add_assoc]
        rfl
      · rw [heldCount_hold hfree, ← Nat.add_assoc, UInt64.ofNat_add, ← h.misses]
        rfl
      · rw [entryCount_hold]
        exact h.stored

/-- The end of a computation. -/
theorem Balances.settle {b : CacheBooks} (h : c.Balances b) (hheld : c.isHeld key = true)
    (now : Tick) (result : Except ε β) :
    (c.settle key now result).Balances
      { b with
        computations := b.computations + 1
        stored := b.stored + result.isOk.toNat
        replaced := b.replaced + (result.isOk && (c.find? key).isSome).toNat } := by
  have hrunning := heldCount_settle hheld now result
  have hentries := entryCount_settle hheld now result
  refine ⟨h.calls, h.misses.trans (congrArg UInt64.ofNat ?_), h.evictions, ?_⟩
  · dsimp only
    omega
  · have hstored := h.stored
    dsimp only
    omega

/-- Dropping slots that no computation holds. -/
theorem Balances.retain {b : CacheBooks} (h : c.Balances b) (m : Metrics)
    {keep : CacheKey → CacheSlot β → Bool}
    (hkeep : ∀ (key : CacheKey) (slot : CacheSlot β), c.slots[key]? = some slot →
      slot.isComputing = true → keep key slot = true) :
    (c.retain m keep).2.1.Balances { b with dropped := b.dropped + (c.retain m keep).1 } := by
  have hentries := entryCount_retain c m keep
  have hheld := heldCount_retain hkeep m
  have hevictions : (c.retain m keep).2.1.evictions =
      c.evictions + UInt64.ofNat (c.retain m keep).1 := by
    simp only [AccessCache.retain, recordEvictions_fst]
  refine ⟨?_, ?_, ?_, ?_⟩
  · simp only [AccessCache.retain, recordEvictions_fst]
    exact h.calls
  · rw [hheld]
    simp only [AccessCache.retain, recordEvictions_fst]
    exact h.misses
  · rw [hevictions, h.evictions, UInt64.ofNat_add]
  · have hstored := h.stored
    dsimp only
    omega

end AccessCache

/-! ## Runs of several caches -/

/-- Caches that count in the same metrics. -/
structure CachePool {ι : Type} (α : ι → Type) where
  caches : (i : ι) → AccessCache (α i)
  metrics : Metrics

namespace CachePool

variable {α : ι → Type}

/-- New caches, all metered, and metrics that nothing was counted in. -/
structure IsNew {ι : Type} {α : ι → Type} (p : CachePool α) : Prop where
  slots (i : ι) : (p.caches i).slots = ∅
  hits (i : ι) : (p.caches i).hits = 0
  misses (i : ι) : (p.caches i).misses = 0
  evictions (i : ι) : (p.caches i).evictions = 0
  isMetered (i : ι) : (p.caches i).isMetered = true
  metrics : p.metrics = {}

/-- No computation is running. -/
def IsIdle {ι : Type} {α : ι → Type} (p : CachePool α) : Prop :=
  ∀ (i : ι) (key : CacheKey), (p.caches i).isHeld key = false

theorem IsIdle.isComputing_eq_false {ι : Type} {α : ι → Type} {p : CachePool α} (h : p.IsIdle)
    {i : ι} {item : CacheKey × CacheSlot (α i)} (hitem : item ∈ (p.caches i).slots.toList) :
    item.2.isComputing = false := by
  cases hcomputing : item.2.isComputing with
  | false => rfl
  | true =>
      have hslot := ExtTreeMap.mem_toList_iff_getElem?_eq_some.mp hitem
      have hheld := AccessCache.isHeld_of_isComputing hslot hcomputing
      rw [h i item.1] at hheld
      cases hheld

theorem IsIdle.heldCount_eq_zero {ι : Type} {α : ι → Type} {p : CachePool α} (h : p.IsIdle)
    (i : ι) : (p.caches i).heldCount = 0 :=
  List.countP_eq_zero.mpr fun item hitem => by simp [h.isComputing_eq_false hitem]

/-- Where no computation is running, the size of a cache is how many entries it has. -/
theorem IsIdle.size_eq {ι : Type} {α : ι → Type} {p : CachePool α} (h : p.IsIdle) (i : ι) :
    (p.caches i).size = AccessCache.entryCount (p.caches i).slots :=
  List.countP_congr fun item hitem => by simp [h.isComputing_eq_false hitem]

/-- What an operation of one cache leaves. -/
def put (p : CachePool α) (i : ι) (outcome : AccessCache (α i) × Metrics) : CachePool α where
  caches := Function.update p.caches i outcome.1
  metrics := outcome.2

@[simp]
theorem caches_put_self (p : CachePool α) (i : ι) (outcome : AccessCache (α i) × Metrics) :
    (p.put i outcome).caches i = outcome.1 :=
  Function.update_self ..

@[simp]
theorem caches_put_of_ne (p : CachePool α) {i j : ι} (hne : j ≠ i)
    (outcome : AccessCache (α i) × Metrics) : (p.put i outcome).caches j = p.caches j :=
  Function.update_of_ne hne ..

/-- One operation of one cache, or one of the two sections of a get. The clock of a cache may
read anything at any time. -/
inductive Step (p : CachePool α) : CacheRecord ι → CachePool α → Prop
  /-- A key is asked for. It is served, or a computation begins and holds its slot. -/
  | ask {i : ι} {key : CacheKey} (hfree : (p.caches i).isHeld key = false) (now : Tick) :
      p.Step (.asked i) (p.put i ((p.caches i).lookup p.metrics key now).2)
  | settle {i : ι} {key : CacheKey} (hheld : (p.caches i).isHeld key = true) (now : Tick)
      {ε : Type} (result : Except ε (α i)) :
      p.Step (.computed i result.isOk ((p.caches i).find? key).isSome)
        (p.put i ((p.caches i).settle key now result, p.metrics))
  | invalidateClass {i : ι} {cls : ResourceClass}
      (hfree : ∀ key : CacheKey, key.cls = cls → (p.caches i).isHeld key = false) :
      p.Step (.dropped i ((p.caches i).invalidateClass p.metrics cls).1)
        (p.put i ((p.caches i).invalidateClass p.metrics cls).2)
  | invalidateAll {i : ι} (hfree : ∀ key : CacheKey, (p.caches i).isHeld key = false) :
      p.Step (.dropped i ((p.caches i).invalidateAll p.metrics).1)
        (p.put i ((p.caches i).invalidateAll p.metrics).2)
  | purge (i : ι) (now : Tick) :
      p.Step (.dropped i ((p.caches i).purge p.metrics now).1)
        (p.put i ((p.caches i).purge p.metrics now).2)
  /-- Something is looked at, or counted under a name that is not of the caches. -/
  | other (m : Metrics)
      (hcounters : ∀ name ∈ [Metrics.cacheHits, Metrics.cacheMisses, Metrics.cacheEvictions],
        m.counter name = p.metrics.counter name) :
      p.Step .other { p with metrics := m }

/-- What a pool can come to, with the records of how. -/
inductive Run (start : CachePool α) : List (CacheRecord ι) → CachePool α → Prop
  | refl : Run start [] start
  | step {records : List (CacheRecord ι)} {record : CacheRecord ι} {p p' : CachePool α}
      (hrun : Run start records p) (hstep : p.Step record p') : Run start (records ++ [record]) p'

theorem put_put (p : CachePool α) (i : ι) (outcome outcome' : AccessCache (α i) × Metrics) :
    (p.put i outcome).put i outcome' = p.put i outcome' := by
  rw [put, put, put, Function.update_idem]

/-- A get whose computation leaves the caches alone is one operation or two. -/
theorem Run.getOrCompute {start p : CachePool α} {records : List (CacheRecord ι)}
    (hrun : start.Run records p) {i : ι} {key : CacheKey}
    (hfree : (p.caches i).isHeld key = false) (now : Tick) {ε : Type} (result : Except ε (α i)) :
    start.Run
      (records ++ [.asked i]
        ++ if ((p.caches i).peek key now).isSome then []
          else [.computed i result.isOk ((p.caches i).find? key).isSome])
      (p.put i ((p.caches i).getOrCompute p.metrics key now fun m => (result, m)).2) := by
  have hasked := hrun.step (.ask hfree now)
  cases hpeek : (p.caches i).peek key now with
  | some value =>
      rw [AccessCache.lookup_of_peek_eq_some hpeek] at hasked
      rw [AccessCache.getOrCompute, AccessCache.lookup_of_peek_eq_some hpeek, Option.isSome_some,
        if_pos rfl, List.append_nil]
      exact hasked
  | none =>
      rw [AccessCache.lookup_of_peek_eq_none hpeek] at hasked
      have hheld : (((p.put i ((p.caches i).hold key,
          (p.caches i).meter p.metrics Metrics.cacheMisses 1)).caches i).isHeld key) = true := by
        simp [AccessCache.isHeld_hold]
      have hsettled := hasked.step (.settle hheld now result)
      rw [put_put, caches_put_self, AccessCache.find?_hold] at hsettled
      rw [AccessCache.getOrCompute, AccessCache.lookup_of_peek_eq_none hpeek]
      exact hsettled

/-! ## The books balance -/

variable [Fintype ι]

/-- The caches agree with their books, and the metrics with the caches. -/
structure Balanced (p : CachePool α) (records : List (CacheRecord ι)) : Prop where
  isMetered (i : ι) : (p.caches i).isMetered = true
  books (i : ι) : (p.caches i).Balances (.ofRecords records i)
  metrics (counter : CacheCounter) :
    p.metrics.counter counter.name =
      UInt64.ofNat (∑ i, ((p.caches i).counted counter).toNat)

variable {p p' : CachePool α} {records : List (CacheRecord ι)} {record : CacheRecord ι}

/-- What one cache counts the sum counts. -/
theorem sum_counted_put {i : ι} {outcome : AccessCache (α i) × Metrics} {more : UInt64}
    {counter : CacheCounter}
    (hcounted : outcome.1.counted counter = (p.caches i).counted counter + more) :
    UInt64.ofNat (∑ j, (((p.put i outcome).caches j).counted counter).toNat) =
      UInt64.ofNat (∑ j, ((p.caches j).counted counter).toNat) + more := by
  rw [← Finset.add_sum_erase _ _ (Finset.mem_univ i),
    ← Finset.add_sum_erase (a := i) _ (fun j => ((p.caches j).counted counter).toNat)
      (Finset.mem_univ i)]
  have hothers : ∑ j ∈ Finset.univ.erase i, (((p.put i outcome).caches j).counted counter).toNat =
      ∑ j ∈ Finset.univ.erase i, ((p.caches j).counted counter).toNat := by
    refine Finset.sum_congr rfl fun j hj => ?_
    rw [caches_put_of_ne p (Finset.ne_of_mem_erase hj)]
  rw [hothers, caches_put_self, hcounted, UInt64.ofNat_add, UInt64.ofNat_add, UInt64.ofNat_toNat,
    UInt64.ofNat_toNat, UInt64.add_assoc, UInt64.add_assoc, UInt64.add_comm more]

/-- An operation of one cache that keeps its own books keeps the books of all. -/
theorem Balanced.put (h : p.Balanced records) {i : ι} {outcome : AccessCache (α i) × Metrics}
    (hcounts : (p.caches i).CountsAlong outcome.1 p.metrics outcome.2)
    (habout : record.cache? = some i)
    (hbooks : outcome.1.Balances ((CacheBooks.ofRecords records i).enter i record)) :
    (p.put i outcome).Balanced (records ++ [record]) where
  isMetered j := by
    by_cases heq : j = i
    · subst heq
      rw [caches_put_self, hcounts.isMetered, h.isMetered]
    · rw [caches_put_of_ne p heq, h.isMetered]
  books j := by
    rw [CacheBooks.ofRecords_concat]
    by_cases heq : j = i
    · subst heq
      rw [caches_put_self]
      exact hbooks
    · rw [caches_put_of_ne p heq, CacheBooks.enter_of_ne (Ne.symm heq) _ habout]
      exact h.books j
  metrics counter := by
    obtain ⟨more, hcounted, hmetrics⟩ := hcounts.counted counter
    rw [sum_counted_put hcounted, ← h.metrics, ← hmetrics]
    rfl

theorem Balanced.step (h : p.Balanced records) (hstep : p.Step record p') :
    p'.Balanced (records ++ [record]) := by
  cases hstep with
  | @ask i key hfree now =>
      refine h.put (AccessCache.countsAlong_lookup (h.isMetered i) _ key now) rfl ?_
      rw [CacheBooks.enter, if_pos rfl]
      exact (h.books i).lookup hfree _ now
  | @settle i key hheld now ε result =>
      refine h.put (AccessCache.countsAlong_settle _ _ key now result) rfl ?_
      rw [CacheBooks.enter, if_pos rfl]
      exact (h.books i).settle hheld now result
  | @invalidateClass i cls hfree =>
      refine h.put (AccessCache.countsAlong_retain (h.isMetered i) _ _) rfl ?_
      rw [CacheBooks.enter, if_pos rfl]
      refine (h.books i).retain _ fun key slot hslot hcomputing => bne_iff_ne.mpr fun hcls => ?_
      have hheld := AccessCache.isHeld_of_isComputing hslot hcomputing
      rw [hfree key hcls] at hheld
      cases hheld
  | @invalidateAll i hfree =>
      refine h.put (AccessCache.countsAlong_retain (h.isMetered i) _ _) rfl ?_
      rw [CacheBooks.enter, if_pos rfl]
      refine (h.books i).retain _ fun key slot hslot hcomputing => ?_
      have hheld := AccessCache.isHeld_of_isComputing hslot hcomputing
      rw [hfree key] at hheld
      cases hheld
  | @purge i now =>
      refine h.put (AccessCache.countsAlong_retain (h.isMetered i) _ _) rfl ?_
      rw [CacheBooks.enter, if_pos rfl]
      refine (h.books i).retain _ fun key slot hslot hcomputing => ?_
      rw [AccessCache.survivesPurge, hcomputing, Bool.true_or]
  | other m hcounters =>
      refine ⟨h.isMetered, fun i => ?_, fun counter => ?_⟩
      · rw [CacheBooks.ofRecords_concat]
        exact h.books i
      · rw [← h.metrics counter]
        exact hcounters _ (by cases counter <;> simp [CacheCounter.name])

theorem IsNew.balanced (h : p.IsNew) : p.Balanced [] where
  isMetered := h.isMetered
  books i := by
    refine ⟨?_, ?_, h.evictions i, ?_⟩
    · rw [h.hits, h.misses]
      rfl
    · rw [h.misses, AccessCache.heldCount, h.slots]
      rfl
    · rw [AccessCache.entryCount, h.slots]
      rfl
  metrics counter := by
    have hzero (i : ι) : ((p.caches i).counted counter).toNat = 0 := by
      cases counter with
      | hits => exact congrArg UInt64.toNat (h.hits i)
      | misses => exact congrArg UInt64.toNat (h.misses i)
      | evictions => exact congrArg UInt64.toNat (h.evictions i)
    rw [h.metrics, Finset.sum_eq_zero fun i _ => hzero i]
    rfl

theorem Run.balanced {start : CachePool α} (hnew : start.IsNew) (hrun : start.Run records p) :
    p.Balanced records := by
  induction hrun with
  | refl => exact hnew.balanced
  | step _ hstep ih => exact ih.step hstep

/-- Where no computation is running, the books balance: every call was served or computed, every
eviction was returned, what was stored is there, was dropped or was replaced, the statistics count
no less than what is there, and the metrics have what the caches have together. -/
theorem Run.books_balance {start : CachePool α} (hnew : start.IsNew) (hrun : start.Run records p)
    (hidle : p.IsIdle) :
    (∀ i : ι,
      let c := p.caches i
      let books := CacheBooks.ofRecords records i
      c.hits + c.misses = UInt64.ofNat books.calls
      ∧ c.misses = UInt64.ofNat books.computations
      ∧ c.evictions = UInt64.ofNat books.dropped
      ∧ books.stored = c.size + books.dropped + books.replaced
      ∧ UInt64.ofNat books.stored =
        UInt64.ofNat c.size + c.evictions + UInt64.ofNat books.replaced
      ∧ c.stats.entries = total c.stats.slotsByTag
      ∧ c.size ≤ c.stats.entries)
    ∧ p.metrics.counter Metrics.cacheHits = UInt64.ofNat (∑ i, (p.caches i).hits.toNat)
    ∧ p.metrics.counter Metrics.cacheMisses = UInt64.ofNat (∑ i, (p.caches i).misses.toNat)
    ∧ p.metrics.counter Metrics.cacheEvictions =
      UInt64.ofNat (∑ i, (p.caches i).evictions.toNat) := by
  have hbalanced := hrun.balanced hnew
  refine ⟨fun i => ?_, hbalanced.metrics .hits, hbalanced.metrics .misses,
    hbalanced.metrics .evictions⟩
  obtain ⟨hcalls, hmisses, hevictions, hstored⟩ := hbalanced.books i
  rw [hidle.heldCount_eq_zero] at hmisses
  rw [← hidle.size_eq] at hstored
  refine ⟨hcalls, hmisses, hevictions, by omega, ?_, rfl, (p.caches i).size_le_entries_stats⟩
  rw [hstored, UInt64.ofNat_add, UInt64.ofNat_add, hevictions]

/-- Two caches and their metrics, all new. -/
def emptyPair : CachePool fun _ : Bool => Nat where
  caches i := { name := if i then "first" else "second" }
  metrics := {}

def opsKey : CacheKey := ⟨.identity, "ops"⟩

/-- The first cache is asked for a key, and a computation begins. -/
def outerPair : CachePool fun _ : Bool => Nat :=
  emptyPair.put true ((emptyPair.caches true).lookup emptyPair.metrics opsKey ⟨0⟩).2

/-- The computation asks the second cache, where another one fails. -/
def innerPair : CachePool fun _ : Bool => Nat :=
  outerPair.put false
    ((outerPair.caches false).getOrCompute outerPair.metrics opsKey ⟨0⟩
      fun m => ((.error () : Except Unit Nat), m)).2

/-- The first computation ends nevertheless. -/
def nestedPair : CachePool fun _ : Bool => Nat :=
  innerPair.put true
    ((innerPair.caches true).settle opsKey ⟨0⟩ (.ok 1 : Except Unit Nat), innerPair.metrics)

theorem nestedPair_balances :
    nestedPair.metrics.counter Metrics.cacheMisses =
      UInt64.ofNat (∑ i, (nestedPair.caches i).misses.toNat)
    ∧ (∀ i : Bool, (nestedPair.caches i).misses = 1)
    ∧ 1 = (nestedPair.caches true).size ∧ 0 = (nestedPair.caches false).size := by
  have hnew : emptyPair.IsNew :=
    ⟨fun _ => rfl, fun _ => rfl, fun _ => rfl, fun _ => rfl, fun _ => rfl, rfl⟩
  have hfree (i : Bool) (key : CacheKey) : (emptyPair.caches i).isHeld key = false := by
    simp [AccessCache.isHeld, hnew.slots]
  have hpeek (i : Bool) : (emptyPair.caches i).peek opsKey ⟨0⟩ = none :=
    AccessCache.peek_eq_none_of_find? (by simp [AccessCache.find?, hnew.slots])
  have hfirst : outerPair.caches true = (emptyPair.caches true).hold opsKey := by
    rw [outerPair, AccessCache.lookup_of_peek_eq_none (hpeek true), caches_put_self]
  have hsecond : outerPair.caches false = emptyPair.caches false := by
    rw [outerPair, caches_put_of_ne _ (by decide)]
  have hfirst' : innerPair.caches true = (emptyPair.caches true).hold opsKey := by
    rw [innerPair, caches_put_of_ne _ (by decide), hfirst]
  have hsecond' : innerPair.caches false =
      ((emptyPair.caches false).hold opsKey).settle opsKey ⟨0⟩ (.error () : Except Unit Nat) := by
    rw [innerPair, caches_put_self, hsecond, AccessCache.getOrCompute,
      AccessCache.lookup_of_peek_eq_none (hpeek false)]
  have houter : emptyPair.Run [.asked true] outerPair := .step .refl (.ask (hfree true opsKey) ⟨0⟩)
  have hinner := houter.getOrCompute (by rw [hsecond]; exact hfree false opsKey) ⟨0⟩
    (.error () : Except Unit Nat)
  have hheld : (innerPair.caches true).isHeld opsKey = true := by
    simp [hfirst', AccessCache.isHeld_hold]
  have hrun : emptyPair.Run _ nestedPair := hinner.step (.settle hheld ⟨0⟩ (.ok 1))
  have hidle : nestedPair.IsIdle := by
    intro i key
    cases i with
    | false =>
        rw [nestedPair, caches_put_of_ne _ (by decide), hsecond']
        simp [AccessCache.isHeld_settle, AccessCache.isHeld_hold, hfree]
    | true =>
        rw [nestedPair, caches_put_self, hfirst']
        simp [AccessCache.isHeld_settle, AccessCache.isHeld_hold, hfree]
  obtain ⟨hbooks, -, hmisses, -⟩ := hrun.books_balance hnew hidle
  refine ⟨hmisses, fun i => ?_, (hbooks true).2.2.2.1, (hbooks false).2.2.2.1⟩
  rw [(hbooks i).2.1]
  cases i <;> rfl

end CachePool

end ControlPlane
