/-
# A call on its own

The map of a shared cache shows an access cache: the slots that are in the map, and the counters.
A call whose sections nothing comes between does to that cache what the operation of the access
cache does, and returns what the operation returns. Other calls may be under way meanwhile, as long
as none of them keeps a slot locked that the call needs.
-/

import ControlPlane.Proofs.Cache.Sections
import Mathlib.Logic.Relation

namespace ControlPlane

open Std (ExtTreeMap)
open Relation (ReflTransGen)

variable {α ε : Type}

/-! ## Operations -/

/-- What a call returns. -/
inductive CacheAnswer (α ε : Type)
  | value (value : α)
  | nothing
  | failed (cause : ε)
  | dropped (count : Nat)

/-- What a call that has come to its end returns. -/
def CallStage.answer? : CallStage α ε → Option (CacheAnswer α ε)
  | served _ _ value => some (.value value)
  | missed => some .nothing
  | failed cause => some (.failed cause)
  | dropped count _ => some (.dropped count)
  | seeking | queued _ | computing _ | dropping | sweeping _ | retiring .. | emptying .. => none

namespace CacheOp

/-- What an operation of an access cache returns and leaves, at one reading of the clock. Where it
has to compute, the computation has the given result. -/
def perform (op : CacheOp) (c : AccessCache α) (m : Metrics) (now : Tick) (result : Except ε α) :
    CacheAnswer α ε × AccessCache α :=
  match op with
  | get key =>
      let (answer, c, _) := c.getOrCompute m key now fun m => (result, m)
      (match answer with
        | .ok value => .value value
        | .error cause => .failed cause, c)
  | peek key => ((c.peek key now).elim .nothing .value, c)
  | invalidateClass cls =>
      let (dropped, c, _) := c.invalidateClass m cls
      (.dropped dropped, c)
  | invalidateAll =>
      let (dropped, c, _) := c.invalidateAll m
      (.dropped dropped, c)
  | purge =>
      let (dropped, c, _) := c.purge m now
      (.dropped dropped, c)

/-- Whether an operation waits for the lock of the slot of a key. -/
def locks (op : CacheOp) (key : CacheKey) : Bool :=
  op.key? == some key || op.invalidates key

end CacheOp

/-! ## The slots of an access cache -/

namespace AccessCache

variable {c : AccessCache α} {key : CacheKey}

/-- Getting a key is the same whether or not the key has an empty slot. -/
theorem getOrCompute_withSlot_empty (hnone : c.slots[key]? = none) (m : Metrics) (now : Tick)
    (compute : Metrics → Except ε α × Metrics) :
    (c.withSlot key {}).getOrCompute m key now compute = c.getOrCompute m key now compute := by
  have hpeek : c.peek key now = none := peek_eq_none_of_find? (by simp [find?, hnone])
  have hpeek' : (c.withSlot key {}).peek key now = none :=
    peek_eq_none_of_find? (by simp [find?, getElem?_slots_withSlot])
  have hhold : (c.withSlot key {}).hold key = c.hold key := by
    rw [hold_eq_withSlot, hold_eq_withSlot, getElem?_slots_withSlot, if_pos rfl, hnone]
    exact withSlot_withSlot { c with misses := c.misses + 1 } key _ _
  rw [getOrCompute, getOrCompute, lookup_of_peek_eq_none hpeek, lookup_of_peek_eq_none hpeek',
    hhold]
  rfl

end AccessCache

namespace SharedCache

variable {w w' : SharedCache α ε} {name : String} {n s : Nat} {key : CacheKey}
  {slot : SharedSlot α} {c : CacheCall α ε} {op : CacheOp}

/-! ## The cache that the map shows -/

/-- The access cache that the map shows. -/
def cache (w : SharedCache α ε) (name : String) : AccessCache α where
  name
  settings := w.settings
  slots := w.map.filterMap fun _ s => (w.slots s).map (·.content)
  hits := w.hits
  misses := w.misses
  evictions := w.evictions

theorem getElem?_slots_cache (w : SharedCache α ε) (name : String) (key : CacheKey) :
    (w.cache name).slots[key]? = w.map[key]?.bind fun s => (w.slots s).map (·.content) := by
  rw [cache, ExtTreeMap.getElem?_filterMap']

theorem getElem?_slots_cache_of_inMap (hinMap : w.map[key]? = some s)
    (hslot : w.slots s = some slot) :
    (w.cache name).slots[key]? = some slot.content := by
  rw [getElem?_slots_cache, hinMap, Option.bind_some, hslot, Option.map_some]

theorem peek_cache (name : String) (hinMap : w.map[key]? = some s) (hslot : w.slots s = some slot)
    (now : Tick) : (w.cache name).peek key now = slot.live? now w.settings.maxAge := by
  rw [AccessCache.peek, AccessCache.find?, getElem?_slots_cache_of_inMap hinMap hslot]
  rfl

theorem cache_recordEvictions (w : SharedCache α ε) (name : String) (dropped : Nat) :
    (w.recordEvictions dropped).cache name =
      { w.cache name with evictions := (w.cache name).evictions + UInt64.ofNat dropped } := rfl

/-- A slot in the map that is not held is free. -/
theorem Sound.exists_free (h : w.Sound) (hinMap : w.map[key]? = some s)
    (hheld : (w.cache name).isHeld key = false) : ∃ slot, w.Free s slot := by
  obtain ⟨slot, hslot, -, -⟩ := h.map key s hinMap
  refine ⟨slot, hslot, ?_⟩
  rw [AccessCache.isHeld, getElem?_slots_cache_of_inMap hinMap hslot] at hheld
  simpa [SharedSlot.content] using hheld

/-- A slot is in the map under one key only. -/
theorem Sound.key_eq (h : w.Sound) {other : CacheKey} (hinMap : w.map[key]? = some s)
    (hother : w.map[other]? = some s) : key = other := by
  obtain ⟨slot, hslot, rfl, -⟩ := h.map key s hinMap
  obtain ⟨slot', hslot', rfl, -⟩ := h.map other s hother
  rw [Option.some.inj (hslot.symm.trans hslot')]

/-- A slot shows under no key but its own. -/
theorem getElem?_slots_cache_setSlot (hother : w.map[key]? ≠ some s) (slot : SharedSlot α) :
    ((w.setSlot s slot).cache name).slots[key]? = (w.cache name).slots[key]? := by
  rw [getElem?_slots_cache, getElem?_slots_cache]
  change (w.map[key]?.bind fun s' => (Function.update w.slots s (some slot) s').map _) = _
  cases hinMap : w.map[key]? with
  | none => rfl
  | some s' =>
      have hne : s' ≠ s := by
        rintro rfl
        exact hother hinMap
      rw [Option.bind_some, Option.bind_some, Function.update_of_ne hne]

theorem Sound.cache_setSlot (h : w.Sound) (hinMap : w.map[key]? = some s) (slot : SharedSlot α) :
    (w.setSlot s slot).cache name = (w.cache name).withSlot key slot.content := by
  refine AccessCache.eq_of_slots (fun other => ?_) rfl
  rw [AccessCache.getElem?_slots_withSlot]
  by_cases heq : key = other
  · subst heq
    rw [if_pos rfl]
    exact getElem?_slots_cache_of_inMap hinMap (Function.update_self ..)
  · rw [if_neg heq]
    exact getElem?_slots_cache_setSlot (fun hother => heq (h.key_eq hinMap hother)) slot

theorem cache_setSlot_of_not_inMap (hout : ∀ key : CacheKey, w.map[key]? ≠ some s)
    (slot : SharedSlot α) : (w.setSlot s slot).cache name = w.cache name :=
  AccessCache.eq_of_slots (fun key => getElem?_slots_cache_setSlot (hout key) slot) rfl

theorem cache_create (hout : ∀ key : CacheKey, w.map[key]? ≠ some s) (key : CacheKey)
    (slot : SharedSlot α) :
    (setSlot { w with map := w.map.insert key s } s slot).cache name =
      (w.cache name).withSlot key slot.content := by
  refine AccessCache.eq_of_slots (fun other => ?_) rfl
  rw [AccessCache.getElem?_slots_withSlot]
  by_cases heq : key = other
  · subst heq
    rw [if_pos rfl]
    exact getElem?_slots_cache_of_inMap ExtTreeMap.getElem?_insert_self (Function.update_self ..)
  · have hsame : (w.map.insert key s)[other]? = w.map[other]? := by
      rw [getElem?_insert_eq_ite, if_neg heq]
    rw [if_neg heq, getElem?_slots_cache_setSlot (hsame ▸ hout other), getElem?_slots_cache,
      getElem?_slots_cache]
    exact congrArg (Option.bind · _) hsame

section

variable {gone : CacheKey → Nat → Bool} {keep : CacheKey → CacheSlot α → Bool}

/-- What the access cache keeps is what is not taken out of the map. -/
def Spares (w : SharedCache α ε) (gone : CacheKey → Nat → Bool)
    (keep : CacheKey → CacheSlot α → Bool) : Prop :=
  ∀ key s slot, w.map[key]? = some s → w.slots s = some slot → keep key slot.content = !gone key s

theorem spares_invalidates (w : SharedCache α ε) (op : CacheOp) :
    w.Spares (fun key _ => op.invalidates key) fun key _ => !op.invalidates key :=
  fun _ _ _ _ _ => rfl

theorem spares_isSwept (w : SharedCache α ε) (name : String) (now : Tick) :
    w.Spares (fun _ s => w.isSwept now s) fun _ slot => (w.cache name).survivesPurge now slot := by
  intro key s slot _ hslot
  change (w.cache name).survivesPurge now slot.content = !w.isSwept now s
  rw [isSwept, hslot, Option.all_some, AccessCache.survivesPurge, SharedSlot.content, Bool.not_and]
  cases slot.holder <;> cases slot.entry <;> simp [cache]

/-- Slots that are taken out of the map no longer show. -/
theorem Sound.cache_detach (h : w.Sound) (hkeep : w.Spares gone keep) (retire : Bool) :
    (w.detach n gone retire).cache name =
      { w.cache name with slots := (w.cache name).slots.filter keep } := by
  refine AccessCache.eq_of_slots (fun key => ?_) rfl
  rw [getElem?_slots_cache, ExtTreeMap.getElem?_filter', getElem?_slots_cache]
  change ((w.map.filter fun key s => !gone key s)[key]?.bind fun s =>
    ((w.slots s).map (w.leave n gone retire s)).map _) = _
  rw [ExtTreeMap.getElem?_filter']
  cases hinMap : w.map[key]? with
  | none => rfl
  | some s =>
      obtain ⟨slot, hslot, rfl, -⟩ := h.map key s hinMap
      rw [Option.bind_some, hslot, Option.map_some, Option.filter_some, Option.filter_some,
        hkeep slot.key s slot hinMap hslot]
      split
      · next hstays =>
        have hleave : w.leave n gone retire s slot = slot :=
          if_neg fun hgone => by simp [hgone.2] at hstays
        simp [hslot, hleave]
      · rfl

/-- The entries that go are those of the slots that are taken out. -/
theorem Sound.entryCount_inMap (h : w.Sound) (name : String) (hkeep : w.Spares gone keep) :
    w.entryCount (w.inMap gone) =
      AccessCache.entryCount ((w.cache name).slots.filter fun key slot => !keep key slot) := by
  have hslots : ((w.cache name).slots.filter fun key slot => !keep key slot) =
      (w.map.filter gone).filterMap fun _ s => (w.slots s).map (·.content) := by
    refine ExtTreeMap.ext_getElem? fun {key} => ?_
    rw [ExtTreeMap.getElem?_filter', getElem?_slots_cache, ExtTreeMap.getElem?_filterMap',
      ExtTreeMap.getElem?_filter']
    cases hinMap : w.map[key]? with
    | none => rfl
    | some s =>
        obtain ⟨slot, hslot, rfl, -⟩ := h.map key s hinMap
        rw [Option.bind_some, hslot, Option.map_some, Option.filter_some, Option.filter_some,
          hkeep slot.key s slot hinMap hslot, Bool.not_not]
        split
        · simp [hslot]
        · rfl
  rw [hslots, AccessCache.entryCount, ExtTreeMap.toList_filterMap, List.countP_filterMap,
    entryCount, inMap, List.countP_map]
  congr 1
  funext entry
  cases hslot : w.slots entry.2 <;> simp [hslot, SharedSlot.content]

/-- Slots that are taken out of the map and counted are dropped from the access cache. -/
theorem Sound.retain_cache (h : w.Sound) (name : String) (n : Nat) (retire : Bool)
    (hkeep : w.Spares gone keep) (m : Metrics) :
    ((w.cache name).retain m keep).1 = w.entryCount (w.inMap gone)
      ∧ ((w.cache name).retain m keep).2.1 =
        ((w.detach n gone retire).recordEvictions (w.entryCount (w.inMap gone))).cache name := by
  have hcount := h.entryCount_inMap name hkeep
  refine ⟨hcount.symm, ?_⟩
  rw [cache_recordEvictions, h.cache_detach hkeep, hcount]
  exact AccessCache.recordEvictions_fst ..

end

/-! ## Sections of one call -/

/-- A section of one call. -/
def StepOf (n : Nat) (w w' : SharedCache α ε) : Prop :=
  w.Step w' ∧ ∀ m, m ≠ n → w'.calls m = w.calls m

/-- Sections of one call can end it with an answer, and leave an access cache. -/
def CanEnd (w : SharedCache α ε) (n : Nat) (name : String)
    (done : CacheAnswer α ε × AccessCache α) : Prop :=
  ∃ w' c, ReflTransGen (StepOf n) w w' ∧ w'.calls n = some c ∧ c.stage.answer? = some done.1
    ∧ w'.cache name = done.2

section

variable {v : SharedCache α ε} {c' : CacheCall α ε} {done : CacheAnswer α ε × AccessCache α}

theorem stepOf_put (hstep : w.Step (v.put n c')) (hcalls : v.calls = w.calls) :
    StepOf n w (v.put n c') :=
  ⟨hstep, fun m hm => (Function.update_of_ne hm ..).trans (congrFun hcalls m)⟩

theorem canEnd_of_step (hstep : w.Step (v.put n c')) (hcalls : v.calls = w.calls)
    (h : (v.put n c').CanEnd n name done) : w.CanEnd n name done := by
  obtain ⟨w', c, hrun, hend⟩ := h
  exact ⟨w', c, .head (stepOf_put hstep hcalls) hrun, hend⟩

theorem canEnd_of_lastStep (hstep : w.Step (v.put n c')) (hcalls : v.calls = w.calls)
    (hanswer : c'.stage.answer? = some done.1) (hcache : v.cache name = done.2) :
    w.CanEnd n name done :=
  ⟨v.put n c', c', .single (stepOf_put hstep hcalls), calls_put .., hanswer, hcache⟩

end

/-! ## Getting and peeking -/

theorem Sound.canEnd_computing (h : w.Sound) (name : String)
    (hat : w.At n c (.get key) (.computing s)) (hinMap : w.map[key]? = some s) (now : Tick)
    (result : Except ε α) :
    w.CanEnd n name
      (match result with
        | .ok value => .value value
        | .error cause => .failed cause, (w.cache name).settle key now result) := by
  obtain ⟨slot, hslot, -, -⟩ := h.map key s hinMap
  rw [AccessCache.settle_eq_withSlot (getElem?_slots_cache_of_inMap hinMap hslot)]
  cases result with
  | ok value =>
      exact canEnd_of_lastStep (.store hat hslot now value) rfl rfl (h.cache_setSlot hinMap _)
  | error cause =>
      exact canEnd_of_lastStep (.fail hat hslot cause) rfl rfl (h.cache_setSlot hinMap _)

theorem Sound.canEnd_queued (h : w.Sound) (hat : w.At n c (.get key) (.queued s))
    (hinMap : w.map[key]? = some s) (hfree : w.Free s slot) (m : Metrics) (now : Tick)
    (result : Except ε α) :
    w.CanEnd n name ((CacheOp.get key).perform (w.cache name) m now result) := by
  have hretired : slot.isRetired = false := by
    obtain ⟨slot', hslot', -, hretired⟩ := h.not_retired hinMap
    rwa [Option.some.inj (hfree.found.symm.trans hslot')]
  have hpeek := peek_cache name hinMap hfree.found now
  rw [CacheOp.perform, AccessCache.getOrCompute]
  cases hlive : slot.live? now w.settings.maxAge with
  | some value =>
      rw [AccessCache.lookup_of_peek_eq_some (hpeek.trans hlive)]
      exact canEnd_of_lastStep (.hit hat hfree hretired now hlive) rfl rfl rfl
  | none =>
      have hhold : (w.cache name).hold key =
          { (w.setSlot s { slot with holder := some n }).cache name with
            misses := w.misses + 1 } := by
        rw [h.cache_setSlot hinMap, AccessCache.hold_eq_withSlot,
          getElem?_slots_cache_of_inMap hinMap hfree.found]
        rfl
      rw [AccessCache.lookup_of_peek_eq_none (hpeek.trans hlive), hhold]
      exact canEnd_of_step (.begin hat hfree hretired now hlive) rfl
        ((h.begin hat hfree hretired).canEnd_computing name ⟨calls_put .., hat.op, rfl⟩ hinMap now
          result)

/-- A call looks its slot up, and has it created if there is none. -/
theorem Sound.canEnd_get (h : w.Sound) (hat : w.At n c (.get key) .seeking)
    (hunused : w.slots s = none) (hheld : (w.cache name).isHeld key = false) (m : Metrics)
    (now : Tick) (result : Except ε α) :
    w.CanEnd n name ((CacheOp.get key).perform (w.cache name) m now result) := by
  cases hinMap : w.map[key]? with
  | some s' =>
      obtain ⟨slot, hfree⟩ := h.exists_free hinMap hheld
      exact canEnd_of_step (.find hat rfl hinMap) rfl
        ((h.find hat rfl hinMap).canEnd_queued ⟨calls_put .., hat.op, rfl⟩ hinMap
          ⟨hfree.found, hfree.holder⟩ m now result)
  | none =>
      have hout (other : CacheKey) : w.map[other]? ≠ some s := by
        intro hother
        obtain ⟨slot, hslot, -⟩ := h.map other s hother
        rw [hunused] at hslot
        cases hslot
      have hnone : (w.cache name).slots[key]? = none := by
        rw [getElem?_slots_cache, hinMap, Option.bind_none]
      have hcreated : ((CacheOp.get key).perform (w.cache name) m now result) =
          (CacheOp.get key).perform
            ((setSlot { w with map := w.map.insert key s } s { key, created := w.time }).cache name)
            m now result := by
        rw [cache_create hout, CacheOp.perform, CacheOp.perform,
          ← AccessCache.getOrCompute_withSlot_empty hnone]
        rfl
      rw [hcreated]
      refine canEnd_of_step (.create hat hinMap hunused) rfl
        ((h.create hat hinMap hunused).canEnd_queued ⟨calls_put .., hat.op, rfl⟩ ?_
          ⟨Function.update_self .., rfl⟩ m now result)
      exact ExtTreeMap.getElem?_insert_self

theorem Sound.canEnd_peek (h : w.Sound) (hat : w.At n c (.peek key) .seeking)
    (hheld : (w.cache name).isHeld key = false) (m : Metrics) (now : Tick)
    (result : Except ε α) :
    w.CanEnd n name ((CacheOp.peek key).perform (w.cache name) m now result) := by
  rw [CacheOp.perform]
  cases hinMap : w.map[key]? with
  | none =>
      have hpeek : (w.cache name).peek key now = none :=
        AccessCache.peek_eq_none_of_find? (by
          rw [AccessCache.find?, getElem?_slots_cache, hinMap, Option.bind_none, Option.bind_none])
      rw [hpeek]
      exact canEnd_of_lastStep (.miss hat hinMap) rfl rfl rfl
  | some s =>
      obtain ⟨slot, hfree⟩ := h.exists_free hinMap hheld
      rw [peek_cache name hinMap hfree.found]
      refine canEnd_of_step (.find hat rfl hinMap) rfl ?_
      have hat' : At (w.put n { c with stage := .queued s, found := w.time }) n _ (.peek key)
        (.queued s) := ⟨calls_put .., hat.op, rfl⟩
      have hfree' : Free (w.put n { c with stage := .queued s, found := w.time }) s slot :=
        ⟨hfree.found, hfree.holder⟩
      cases hlive : slot.live? now w.settings.maxAge with
      | some value => exact canEnd_of_lastStep (.see hat' hfree' now hlive) rfl rfl rfl
      | none => exact canEnd_of_lastStep (.seeNothing hat' hfree' now hlive) rfl rfl rfl

/-! ## Invalidating and purging -/

theorem Sound.nodup_inMap (h : w.Sound) (chosen : CacheKey → Nat → Bool) :
    (w.inMap chosen).Nodup := by
  rw [inMap, List.Nodup, List.pairwise_map]
  refine ExtTreeMap.distinct_keys_toList.imp_of_mem fun {a b} ha hb hne => ?_
  obtain ⟨key, s⟩ := a
  obtain ⟨other, s'⟩ := b
  simp only [ExtTreeMap.mem_toList_iff_getElem?_eq_some, ExtTreeMap.getElem?_filter',
    Option.filter_eq_some_iff] at ha hb
  rintro rfl
  simp [h.key_eq ha.1 hb.1] at hne

theorem entryCount_cons (w : SharedCache α ε) (s : Nat) (slots : List Nat) :
    w.entryCount (s :: slots) = w.entryCount [s] + w.entryCount slots := by
  simp only [entryCount, List.countP_cons, List.countP_nil]
  omega

theorem entryCount_congr {slots : List Nat}
    (hslots : ∀ s ∈ slots,
      (w'.slots s).any (·.entry.isSome) = (w.slots s).any (·.entry.isSome)) :
    w'.entryCount slots = w.entryCount slots :=
  List.countP_congr fun s hs => by rw [hslots s hs]

/-- A slot that has left the map is retired and emptied without the map showing anything. -/
theorem Sound.exists_emptied (h : w.Sound) (name : String) {slots : List Nat} {dropped : Nat}
    (hat : w.At n c op (.retiring (s :: slots) dropped)) (hfree : w.Free s slot) :
    ∃ w' c', ReflTransGen (StepOf n) w w' ∧ w'.Sound
      ∧ w'.At n c' op (.retiring slots (dropped + w.entryCount [s]))
      ∧ (∀ s', s' ≠ s → w'.slots s' = w.slots s') ∧ w'.cache name = w.cache name := by
  have hout (key : CacheKey) : w.map[key]? ≠ some s := by
    intro hinMap
    obtain ⟨slot', hslot', -, hleft⟩ := h.map key s hinMap
    obtain ⟨slot'', hslot'', hleft'⟩ := (hat.sound h).2.1 s List.mem_cons_self
    rw [Option.some.inj (hslot'.symm.trans hslot'')] at hleft
    exact hleft' hleft
  have hretire := Step.retire hat List.mem_cons_self hfree.found
  have hretired := h.retire hat List.mem_cons_self hfree.found
  rw [List.erase_cons_head] at hretire hretired
  have hat' : At ((w.setSlot s { slot with isRetired := true }).put n
      { c with stage := .emptying s slots dropped }) n _ op (.emptying s slots dropped) :=
    ⟨calls_put .., hat.op, rfl⟩
  have hfree' : Free ((w.setSlot s { slot with isRetired := true }).put n
      { c with stage := .emptying s slots dropped }) s { slot with isRetired := true } :=
    ⟨Function.update_self .., hfree.holder⟩
  have hcount : entryCount ((w.setSlot s { slot with isRetired := true }).put n
      { c with stage := .emptying s slots dropped }) [s] = w.entryCount [s] := by
    refine entryCount_congr fun s' hs' => ?_
    obtain rfl := List.mem_singleton.mp hs'
    rw [hfree'.found, hfree.found]
    rfl
  refine ⟨_, _, .tail (.single (stepOf_put hretire rfl)) (stepOf_put (.empty hat' hfree') rfl),
    hretired.empty hat' hfree' _, ⟨calls_put .., hat.op, by rw [hcount]⟩, fun s' hs' => ?_, ?_⟩
  · exact (Function.update_of_ne hs' ..).trans (Function.update_of_ne hs' ..)
  · exact (cache_setSlot_of_not_inMap (w := (w.setSlot s _).put n _) hout _).trans
      (cache_setSlot_of_not_inMap hout _)

/-- An invalidation that has taken its slots out of the map retires and empties them. -/
theorem Sound.canEnd_retiring {slots : List Nat} : ∀ {w : SharedCache α ε} {c : CacheCall α ε}
    {dropped : Nat}, w.Sound → w.At n c op (.retiring slots dropped) → slots.Nodup →
    (∀ s ∈ slots, ∃ slot, w.Free s slot) →
    w.CanEnd n name (.dropped (dropped + w.entryCount slots),
      (w.recordEvictions (dropped + w.entryCount slots)).cache name) := by
  induction slots with
  | nil =>
      intro w c dropped h hat _ _
      exact canEnd_of_lastStep (.finish hat rfl) rfl rfl rfl
  | cons s slots ih =>
      intro w c dropped h hat hnodup hfree
      obtain ⟨slot, hslot⟩ := hfree s List.mem_cons_self
      obtain ⟨hs, hnodup⟩ := List.nodup_cons.mp hnodup
      obtain ⟨w₁, c₁, hrun, h₁, hat₁, hsame, hcache⟩ := h.exists_emptied name hat hslot
      have hsame' {s' : Nat} (hs' : s' ∈ slots) : w₁.slots s' = w.slots s' :=
        hsame s' fun heq => hs (heq ▸ hs')
      have hrest : w₁.entryCount slots = w.entryCount slots :=
        entryCount_congr fun s' hs' => by rw [hsame' hs']
      have hcount : dropped + w.entryCount [s] + w₁.entryCount slots =
          dropped + w.entryCount (s :: slots) := by
        rw [hrest, entryCount_cons w s slots, Nat.add_assoc]
      obtain ⟨w₂, c₂, hrun', hcall, hanswer, hcache'⟩ := ih h₁ hat₁ hnodup fun s' hs' => by
        obtain ⟨slot', hfree'⟩ := hfree s' (List.mem_cons_of_mem s hs')
        exact ⟨slot', (hsame' hs').trans hfree'.found, hfree'.holder⟩
      rw [hcount] at hanswer hcache'
      refine ⟨w₂, c₂, hrun.trans hrun', hcall, hanswer, hcache'.trans ?_⟩
      rw [cache_recordEvictions, cache_recordEvictions, hcache]

@[simp]
theorem entry_leave (w : SharedCache α ε) (n : Nat) (gone : CacheKey → Nat → Bool) (retire : Bool)
    (s : Nat) (slot : SharedSlot α) : (w.leave n gone retire s slot).entry = slot.entry := by
  rw [leave]
  split <;> rfl

@[simp]
theorem holder_leave (w : SharedCache α ε) (n : Nat) (gone : CacheKey → Nat → Bool)
    (retire : Bool) (s : Nat) (slot : SharedSlot α) :
    (w.leave n gone retire s slot).holder = slot.holder := by
  rw [leave]
  split <;> rfl

/-- An invalidation can end by itself if nobody holds a slot that it concerns. -/
theorem Sound.canEnd_invalidation (h : w.Sound) (hat : w.At n c op .dropping) (hop : op ≠ .purge)
    (hheld : ∀ key, op.invalidates key = true → (w.cache name).isHeld key = false) (m : Metrics) :
    w.CanEnd n name
      (.dropped ((w.cache name).retain m fun key _ => !op.invalidates key).1,
        ((w.cache name).retain m fun key _ => !op.invalidates key).2.1) := by
  obtain ⟨hdropped, hleft⟩ := h.retain_cache name n false (w.spares_invalidates op) m
  have hcount : entryCount (w.detach n (fun key _ => op.invalidates key) false)
      (w.inMap fun key _ => op.invalidates key) =
        w.entryCount (w.inMap fun key _ => op.invalidates key) := by
    refine entryCount_congr fun s _ => ?_
    change ((w.slots s).map _).any _ = _
    simp [Option.any_map]
  have hfree (s : Nat) (hs : s ∈ w.inMap fun key _ => op.invalidates key) :
      ∃ slot, Free (w.detach n (fun key _ => op.invalidates key) false) s slot := by
    obtain ⟨key, hinMap, hgone⟩ := mem_inMap_iff.mp hs
    obtain ⟨slot, hslot⟩ := h.exists_free hinMap (hheld key hgone)
    exact ⟨_, congrArg (Option.map _) hslot.found, (holder_leave ..).trans hslot.holder⟩
  rw [hdropped, hleft, ← hcount, ← Nat.zero_add (entryCount (w.detach ..) _)]
  refine canEnd_of_step (.detach hat hop) rfl ?_
  refine (h.detach hat).canEnd_retiring ⟨calls_put .., hat.op, rfl⟩ (h.nodup_inMap _) fun s hs => ?_
  obtain ⟨slot, hslot⟩ := hfree s hs
  exact ⟨slot, hslot.found, hslot.holder⟩

theorem Sound.canEnd_purge (h : w.Sound) (hat : w.At n c .purge .dropping) (m : Metrics)
    (now : Tick) (result : Except ε α) :
    w.CanEnd n name (CacheOp.purge.perform (w.cache name) m now result) := by
  refine canEnd_of_step (.readClock hat now) rfl ?_
  obtain ⟨hdropped, hleft⟩ :=
    (h.readClock hat now).retain_cache name n true (spares_isSwept _ name now) m
  exact canEnd_of_lastStep (.sweep ⟨calls_put .., hat.op, rfl⟩ rfl) rfl
    (congrArg (some ∘ CacheAnswer.dropped) hdropped.symm) hleft.symm

/-- A call that nothing overtakes, and that meets no slot that is locked, can do what its operation
does to the access cache that the map shows. -/
theorem Sound.canEnd_alone (h : w.Sound) (hfresh : w.calls n = none) (hunused : w.slots s = none)
    (op : CacheOp) (hheld : ∀ key, op.locks key = true → (w.cache name).isHeld key = false)
    (m : Metrics) (now : Tick) (result : Except ε α) :
    w.CanEnd n name (op.perform (w.cache name) m now result) := by
  refine canEnd_of_step (.start op hfresh) rfl ?_
  have hstarted := h.start op hfresh
  have hat : At (w.put n { op, stage := op.firstStage, started := w.time }) n _ op op.firstStage :=
    ⟨calls_put .., rfl, rfl⟩
  cases op with
  | get key =>
      have hfree := hheld key (by simp [CacheOp.locks, CacheOp.key?])
      exact hstarted.canEnd_get hat hunused hfree m now result
  | peek key =>
      have hfree := hheld key (by simp [CacheOp.locks, CacheOp.key?])
      exact hstarted.canEnd_peek hat hfree m now result
  | invalidateClass cls | invalidateAll =>
      exact hstarted.canEnd_invalidation hat nofun (fun key hkey => hheld key (by
        rw [CacheOp.locks, hkey, Bool.or_true])) m
  | purge => exact hstarted.canEnd_purge hat m now result

end SharedCache

end ControlPlane
