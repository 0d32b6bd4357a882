/-
# The entries of a cache under its operations

Every operation of an access cache is read here through three observations: the entry of a
key, whether a computation holds the key, and the settings. Later proofs use these equations
and never open the tree of slots again.

`Holds` lifts a property of keys and values to a whole cache. A computation keeps it if what
it computes has the property; dropping entries always keeps it.
-/

import ControlPlane.Access.Cache

namespace ControlPlane

open Std (ExtTreeMap)

/-! ## Time -/

theorem Duration.toNat_millis (d : Duration) :
    d.millis.toNat = min (d.nanos / nanosPerMilli) (UInt64.size - 1) :=
  UInt64.toNat_ofNat_of_lt' (Nat.lt_of_le_of_lt (Nat.min_le_right _ _) (by decide))

/-- The milliseconds of whole seconds, as far as a word reaches. -/
theorem Duration.toNat_millis_ofSeconds (seconds : UInt64) :
    (ofSeconds seconds).millis.toNat = min (seconds.toNat * 1000) (UInt64.size - 1) := by
  have hmillis : (ofSeconds seconds).nanos / nanosPerMilli = seconds.toNat * 1000 := by
    simp only [ofSeconds, nanosPerSecond, nanosPerMilli]
    omega
  rw [toNat_millis, hmillis]

theorem Tick.toNat_add (t : Tick) (d : Duration) :
    (t.add d).ms.toNat = min (t.ms.toNat + d.millis.toNat) (UInt64.size - 1) :=
  UInt64.toNat_ofNat_of_lt' (Nat.lt_of_le_of_lt (Nat.min_le_right _ _) (by decide))

theorem Tick.toNat_millisUntil (t deadline : Tick) :
    (t.millisUntil deadline).toNat = deadline.ms.toNat - t.ms.toNat :=
  UInt64.toNat_ofNat_of_lt' (Nat.lt_of_le_of_lt (Nat.sub_le _ _) (UInt64.toNat_lt _))

/-- What is stored can be served: it does not expire at once, and no further ahead than an
entry may. -/
def CacheSettings.Serve (s : CacheSettings) : Prop :=
  0 < s.ttl.millis.toNat ∧ s.ttl.millis.toNat ≤ s.maxAge.millis.toNat

/-- Before the last instant of all, what was just stored is served. -/
theorem CacheEntry.isLive_store {α : Type} {s : CacheSettings} (h : s.Serve) (value : α)
    {now : Tick} (hnow : now.ms.toNat < UInt64.size - 1) :
    (CacheEntry.store value now s.ttl).isLive now s.maxAge = true := by
  obtain ⟨hpositive, hbounded⟩ := h
  simp only [store, isLive, Tick.isBefore, Bool.and_eq_true, decide_eq_true_eq,
    Tick.toNat_millisUntil, Tick.toNat_add]
  omega

/-- What can be served was stored less than a lifetime ago. -/
theorem CacheEntry.lt_of_isLive_store {α : Type} {value : α} {storedAt now : Tick}
    {ttl maxAge : Duration} (h : (store value storedAt ttl).isLive now maxAge = true) :
    now.ms.toNat < storedAt.ms.toNat + ttl.millis.toNat := by
  have hexpiry : (storedAt.add ttl).ms.toNat ≤ storedAt.ms.toNat + ttl.millis.toNat := by
    rw [Tick.toNat_add]
    exact Nat.min_le_left _ _
  have hbefore := of_decide_eq_true (Bool.and_eq_true_iff.mp h).1
  exact Nat.lt_of_lt_of_le hbefore hexpiry

namespace AccessCache

variable {α ε : Type}

/-- Whether a computation holds the slot of a key. -/
def isHeld (c : AccessCache α) (key : CacheKey) : Bool :=
  c.slots[key]?.any (·.isComputing)

/-- The cache once a computation holds the slot of a key. -/
def hold (c : AccessCache α) (key : CacheKey) : AccessCache α :=
  { c with
    misses := c.misses + 1
    slots := c.slots.alter key fun slot => some { slot.getD {} with isComputing := true } }

/-! ## Asking -/

theorem peek_eq_some_iff {c : AccessCache α} {key : CacheKey} {now : Tick} {value : α} :
    c.peek key now = some value ↔
      ∃ entry, c.find? key = some entry ∧ entry.isLive now c.settings.maxAge = true ∧
        entry.value = value := by
  simp only [peek, Option.map_eq_some_iff, Option.filter_eq_some_iff, and_assoc]

/-- A key without an entry has nothing to serve. -/
theorem peek_eq_none_of_find? {c : AccessCache α} {key : CacheKey} {now : Tick}
    (h : c.find? key = none) : c.peek key now = none := by
  simp [peek, h]

theorem lookup_of_peek_eq_some {c : AccessCache α} {key : CacheKey} {now : Tick} {value : α}
    (h : c.peek key now = some value) (m : Metrics) :
    c.lookup m key now =
      (some value, { c with hits := c.hits + 1 }, c.meter m Metrics.cacheHits 1) := by
  simp [lookup, h]

theorem lookup_of_peek_eq_none {c : AccessCache α} {key : CacheKey} {now : Tick}
    (h : c.peek key now = none) (m : Metrics) :
    c.lookup m key now = (none, c.hold key, c.meter m Metrics.cacheMisses 1) := by
  simp [lookup, hold, h]

/-- Asking for a key serves what looking at it shows. -/
theorem lookup_fst (c : AccessCache α) (m : Metrics) (key : CacheKey) (now : Tick) :
    (c.lookup m key now).1 = c.peek key now := by
  cases hpeek : c.peek key now with
  | some value => rw [lookup_of_peek_eq_some hpeek]
  | none => rw [lookup_of_peek_eq_none hpeek]

@[simp]
theorem settings_hold (c : AccessCache α) (key : CacheKey) :
    (c.hold key).settings = c.settings := rfl

/-- Holding a slot leaves every entry where it is. -/
@[simp]
theorem find?_hold (c : AccessCache α) (key other : CacheKey) :
    (c.hold key).find? other = c.find? other := by
  simp only [hold, find?, ExtTreeMap.getElem?_alter]
  by_cases heq : key = other
  · subst heq
    cases hslot : c.slots[key]? <;> simp
  · simp [heq]

@[simp]
theorem settings_lookup (c : AccessCache α) (m : Metrics) (key : CacheKey) (now : Tick) :
    (c.lookup m key now).2.1.settings = c.settings := by
  cases hpeek : c.peek key now with
  | some value => rw [lookup_of_peek_eq_some hpeek]
  | none => rw [lookup_of_peek_eq_none hpeek, settings_hold]

@[simp]
theorem find?_lookup (c : AccessCache α) (m : Metrics) (key : CacheKey) (now : Tick)
    (other : CacheKey) : (c.lookup m key now).2.1.find? other = c.find? other := by
  cases hpeek : c.peek key now with
  | some value =>
      rw [lookup_of_peek_eq_some hpeek]
      rfl
  | none => rw [lookup_of_peek_eq_none hpeek, find?_hold]

theorem isHeld_hold (c : AccessCache α) (key other : CacheKey) :
    (c.hold key).isHeld other = (decide (key = other) || c.isHeld other) := by
  simp only [hold, isHeld, ExtTreeMap.getElem?_alter]
  by_cases heq : key = other
  · subst heq
    simp
  · simp [heq]

/-! ## Ending a computation -/

@[simp]
theorem settings_settle (c : AccessCache α) (key : CacheKey) (now : Tick) (result : Except ε α) :
    (c.settle key now result).settings = c.settings := rfl

/-- A value replaces the entry of a slot that is still there. -/
theorem find?_settle_ok {c : AccessCache α} {key : CacheKey} (hheld : c.isHeld key = true)
    (now : Tick) (value : α) (other : CacheKey) :
    (c.settle (ε := ε) key now (.ok value)).find? other =
      if key = other then some (.store value now c.settings.ttl) else c.find? other := by
  simp only [settle, find?, ExtTreeMap.getElem?_modify]
  by_cases heq : key = other
  · subst heq
    cases hslot : c.slots[key]? with
    | none => simp [isHeld, hslot] at hheld
    | some slot => simp
  · simp [heq]

/-- A failure leaves every entry as it was. -/
theorem find?_settle_error (c : AccessCache α) (key : CacheKey) (now : Tick) (cause : ε)
    (other : CacheKey) :
    (c.settle key now (.error cause : Except ε α)).find? other = c.find? other := by
  simp only [settle, find?, ExtTreeMap.getElem?_modify]
  by_cases heq : key = other
  · subst heq
    cases hslot : c.slots[key]? <;> simp
  · simp [heq]

theorem isHeld_settle (c : AccessCache α) (key : CacheKey) (now : Tick) (result : Except ε α)
    (other : CacheKey) :
    (c.settle key now result).isHeld other = (!decide (key = other) && c.isHeld other) := by
  simp only [settle, isHeld, ExtTreeMap.getElem?_modify]
  by_cases heq : key = other
  · subst heq
    cases hslot : c.slots[key]? <;> simp
  · simp [heq]

/-! ## Dropping slots -/

theorem entryCount_eq_size (slots : ExtTreeMap CacheKey (CacheSlot α)) :
    entryCount slots = (slots.filterMap fun _ slot => slot.entry).size := by
  rw [← ExtTreeMap.length_toList, ExtTreeMap.toList_filterMap, List.length_filterMap_eq_countP,
    entryCount]
  congr 1
  funext slot
  cases slot.2.entry <;> rfl

theorem recordEvictions_fst (c : AccessCache α) (m : Metrics) (dropped : Nat) :
    (c.recordEvictions m dropped).1 =
      { c with evictions := c.evictions + UInt64.ofNat dropped } := by
  rw [recordEvictions]
  split
  · next hzero =>
    subst hzero
    simp
  · rfl

theorem slots_recordEvictions (c : AccessCache α) (m : Metrics) (dropped : Nat) :
    (c.recordEvictions m dropped).1.slots = c.slots := by
  unfold recordEvictions
  split <;> rfl

theorem settings_recordEvictions (c : AccessCache α) (m : Metrics) (dropped : Nat) :
    (c.recordEvictions m dropped).1.settings = c.settings := by
  unfold recordEvictions
  split <;> rfl

/-- What is left of the slots of a key. -/
theorem slots_retain (c : AccessCache α) (m : Metrics) (keep : CacheKey → CacheSlot α → Bool)
    (key : CacheKey) :
    (c.retain m keep).2.1.slots[key]? = c.slots[key]?.filter (keep key) := by
  simp only [retain, slots_recordEvictions]
  rw [ExtTreeMap.getElem?_filter']

theorem settings_retain (c : AccessCache α) (m : Metrics)
    (keep : CacheKey → CacheSlot α → Bool) :
    (c.retain m keep).2.1.settings = c.settings := by
  simp only [retain, settings_recordEvictions]

/-- Dropping slots can take an entry away but never change it. -/
theorem find?_of_find?_retain {c : AccessCache α} {m : Metrics}
    {keep : CacheKey → CacheSlot α → Bool} {key : CacheKey} {entry : CacheEntry α}
    (h : (c.retain m keep).2.1.find? key = some entry) : c.find? key = some entry := by
  simp only [find?, slots_retain, Option.bind_eq_some_iff, Option.filter_eq_some_iff] at h ⊢
  obtain ⟨slot, ⟨hslot, -⟩, hentry⟩ := h
  exact ⟨slot, hslot, hentry⟩

@[simp]
theorem settings_invalidateClass (c : AccessCache α) (m : Metrics) (cls : ResourceClass) :
    (c.invalidateClass m cls).2.1.settings = c.settings :=
  settings_retain c m _

/-- Exactly the entries of the class are gone. -/
theorem find?_invalidateClass (c : AccessCache α) (m : Metrics) (cls : ResourceClass)
    (key : CacheKey) :
    (c.invalidateClass m cls).2.1.find? key =
      if key.cls = cls then none else c.find? key := by
  simp only [invalidateClass, find?, slots_retain]
  by_cases hcls : key.cls = cls
  · cases hslot : c.slots[key]? <;> simp [hcls]
  · cases hslot : c.slots[key]? <;> simp [Option.filter, hcls]

theorem isHeld_invalidateClass (c : AccessCache α) (m : Metrics) (cls : ResourceClass)
    (key : CacheKey) :
    (c.invalidateClass m cls).2.1.isHeld key =
      (!decide (key.cls = cls) && c.isHeld key) := by
  simp only [invalidateClass, isHeld, slots_retain]
  by_cases hcls : key.cls = cls
  · cases hslot : c.slots[key]? <;> simp [hcls]
  · cases hslot : c.slots[key]? <;> simp [hcls]

@[simp]
theorem settings_invalidateAll (c : AccessCache α) (m : Metrics) :
    (c.invalidateAll m).2.1.settings = c.settings :=
  settings_retain c m _

theorem find?_invalidateAll (c : AccessCache α) (m : Metrics) (key : CacheKey) :
    (c.invalidateAll m).2.1.find? key = none := by
  simp only [invalidateAll, find?, slots_retain]
  cases hslot : c.slots[key]? <;> simp

theorem isHeld_invalidateAll (c : AccessCache α) (m : Metrics) (key : CacheKey) :
    (c.invalidateAll m).2.1.isHeld key = false := by
  simp only [invalidateAll, isHeld, slots_retain]
  cases hslot : c.slots[key]? <;> simp

@[simp]
theorem settings_purge (c : AccessCache α) (m : Metrics) (now : Tick) :
    (c.purge m now).2.1.settings = c.settings :=
  settings_retain c m _

/-- A purge takes the entries that cannot be served, except from slots that are held. -/
theorem find?_purge (c : AccessCache α) (m : Metrics) (now : Tick) (key : CacheKey) :
    (c.purge m now).2.1.find? key =
      (c.find? key).filter fun entry =>
        c.isHeld key || entry.isLive now c.settings.maxAge := by
  simp only [purge, find?, isHeld, slots_retain, survivesPurge]
  cases hslot : c.slots[key]? with
  | none => simp
  | some slot =>
      cases hentry : slot.entry <;> cases hheld : slot.isComputing <;>
        simp [Option.filter, hentry, hheld]
      split <;> simp_all

/-- A purge passes over the slots that are held. -/
theorem isHeld_purge (c : AccessCache α) (m : Metrics) (now : Tick) (key : CacheKey) :
    (c.purge m now).2.1.isHeld key = c.isHeld key := by
  simp only [purge, isHeld, slots_retain, survivesPurge]
  cases hslot : c.slots[key]? with
  | none => simp
  | some slot =>
      cases hheld : slot.isComputing with
      | true => simp [Option.filter, hheld]
      | false =>
          simp only [Option.filter, hheld, Bool.false_or, Option.any_some]
          split <;> simp [hheld]

/-! ## One slot set -/

theorem eq_of_slots {c c' : AccessCache α}
    (hslots : ∀ key : CacheKey, c.slots[key]? = c'.slots[key]?)
    (hrest : { c with slots := c'.slots } = c') : c = c' := by
  rw [← hrest, ← ExtTreeMap.ext_getElem? fun {key} => hslots key]

/-- The cache with a slot of a key as given. -/
def withSlot (c : AccessCache α) (key : CacheKey) (slot : CacheSlot α) : AccessCache α :=
  { c with slots := c.slots.insert key slot }

theorem getElem?_slots_withSlot (c : AccessCache α) (key other : CacheKey) (slot : CacheSlot α) :
    (c.withSlot key slot).slots[other]? = if key = other then some slot else c.slots[other]? :=
  getElem?_insert_eq_ite ..

theorem withSlot_withSlot (c : AccessCache α) (key : CacheKey) (slot slot' : CacheSlot α) :
    (c.withSlot key slot).withSlot key slot' = c.withSlot key slot' := by
  refine eq_of_slots (fun other => ?_) rfl
  simp only [getElem?_slots_withSlot]
  split <;> rfl

theorem hold_eq_withSlot (c : AccessCache α) (key : CacheKey) :
    c.hold key =
      withSlot { c with misses := c.misses + 1 } key
        { c.slots[key]?.getD {} with isComputing := true } := by
  refine eq_of_slots (fun other => ?_) rfl
  rw [getElem?_slots_withSlot, hold, ExtTreeMap.getElem?_alter]
  simp

/-- Ending a computation sets the slot that it held. -/
theorem settle_eq_withSlot {c : AccessCache α} {key : CacheKey} {slot : CacheSlot α}
    (hslot : c.slots[key]? = some slot) (now : Tick) (result : Except ε α) :
    c.settle key now result =
      c.withSlot key
        { entry :=
            match result with
            | .ok value => some (.store value now c.settings.ttl)
            | .error _ => slot.entry } := by
  refine eq_of_slots (fun other => ?_) rfl
  rw [getElem?_slots_withSlot, settle, ExtTreeMap.getElem?_modify]
  by_cases heq : key = other
  · subst heq
    cases result <;> simp [hslot]
  · simp [heq]

/-! ## Properties of everything that is kept -/

/-- Every value that is kept, live or not, stands in a relation to its key. -/
def Holds (c : AccessCache α) (P : CacheKey → α → Prop) : Prop :=
  ∀ ⦃key entry⦄, c.find? key = some entry → P key entry.value

/-- A cache without slots keeps nothing. -/
theorem holds_of_slots_eq_empty {c : AccessCache α} (h : c.slots = ∅)
    (P : CacheKey → α → Prop) : c.Holds P := by
  intro key entry hentry
  simp [find?, h] at hentry

section

variable {c : AccessCache α} {P Q : CacheKey → α → Prop} {m : Metrics} {key : CacheKey}
  {now : Tick} {compute : Metrics → Except ε α × Metrics}

theorem Holds.mono (h : c.Holds P) (himp : ∀ key value, P key value → Q key value) :
    c.Holds Q :=
  fun _ _ hentry => himp _ _ (h hentry)

/-- Getting a key gives a value that was kept, or what the computation gives. -/
theorem getOrCompute_fst (c : AccessCache α) (m : Metrics) (key : CacheKey) (now : Tick)
    (compute : Metrics → Except ε α × Metrics) :
    (∃ entry, c.find? key = some entry ∧
        (c.getOrCompute m key now compute).1 = .ok entry.value)
    ∨ ∃ m', (c.getOrCompute m key now compute).1 = (compute m').1 := by
  cases hpeek : c.peek key now with
  | some value =>
      obtain ⟨entry, hentry, -, rfl⟩ := peek_eq_some_iff.mp hpeek
      exact .inl ⟨entry, hentry, by rw [getOrCompute, lookup_of_peek_eq_some hpeek]⟩
  | none =>
      exact .inr ⟨c.meter m Metrics.cacheMisses 1,
        by rw [getOrCompute, lookup_of_peek_eq_none hpeek]⟩

@[simp]
theorem settings_getOrCompute (c : AccessCache α) (m : Metrics) (key : CacheKey) (now : Tick)
    (compute : Metrics → Except ε α × Metrics) :
    (c.getOrCompute m key now compute).2.1.settings = c.settings := by
  cases hpeek : c.peek key now with
  | some value => rw [getOrCompute, lookup_of_peek_eq_some hpeek]
  | none =>
      rw [getOrCompute, lookup_of_peek_eq_none hpeek]
      rfl

theorem getOrCompute_fst_of_peek {value : α} (h : c.peek key now = some value) :
    (c.getOrCompute m key now compute).1 = .ok value := by
  rw [getOrCompute, lookup_of_peek_eq_some h]

/-- What is computed for a key that is not served is kept as of now. -/
theorem find?_getOrCompute_self {value : α} (hpeek : c.peek key now = none)
    (hcompute : ∀ m', (compute m').1 = .ok value) :
    (c.getOrCompute m key now compute).2.1.find? key =
      some (.store value now c.settings.ttl) := by
  have hheld : (c.hold key).isHeld key = true := by simp [isHeld_hold]
  rw [getOrCompute, lookup_of_peek_eq_none hpeek]
  simp only [hcompute, find?_settle_ok hheld, if_true, settings_hold]

/-- Getting a key keeps what is kept, except that a computed value may be stored for the key. -/
theorem find?_getOrCompute {other : CacheKey} {entry : CacheEntry α}
    (h : (c.getOrCompute m key now compute).2.1.find? other = some entry) :
    c.find? other = some entry
    ∨ other = key ∧ ∃ m' value, (compute m').1 = .ok value
        ∧ entry = .store value now c.settings.ttl := by
  cases hpeek : c.peek key now with
  | some value =>
      rw [getOrCompute, lookup_of_peek_eq_some hpeek] at h
      exact .inl h
  | none =>
      rw [getOrCompute, lookup_of_peek_eq_none hpeek] at h
      simp only at h
      cases hresult : (compute (c.meter m Metrics.cacheMisses 1)).1 with
      | error cause =>
          rw [hresult, find?_settle_error, find?_hold] at h
          exact .inl h
      | ok value =>
          have hheld : (c.hold key).isHeld key = true := by simp [isHeld_hold]
          rw [hresult, find?_settle_ok hheld, find?_hold] at h
          by_cases heq : key = other
          · rw [if_pos heq, Option.some.injEq] at h
            exact .inr ⟨heq.symm, _, value, hresult, h.symm⟩
          · rw [if_neg heq] at h
            exact .inl h

/-- A value that was got is kept afterwards, and could be served now or was stored now. -/
theorem exists_entry_of_getOrCompute {value : α}
    (h : (c.getOrCompute m key now compute).1 = .ok value) :
    ∃ entry, (c.getOrCompute m key now compute).2.1.find? key = some entry
      ∧ entry.value = value
      ∧ (entry.isLive now c.settings.maxAge = true ∨ entry.storedAt = now) := by
  cases hpeek : c.peek key now with
  | some served =>
      obtain ⟨entry, hentry, hlive, rfl⟩ := peek_eq_some_iff.mp hpeek
      rw [getOrCompute_fst_of_peek hpeek] at h
      rw [getOrCompute, lookup_of_peek_eq_some hpeek]
      exact ⟨entry, hentry, Except.ok.inj h, .inl hlive⟩
  | none =>
      rw [getOrCompute, lookup_of_peek_eq_none hpeek] at h ⊢
      have hheld : (c.hold key).isHeld key = true := by simp [isHeld_hold]
      simp only at h ⊢
      rw [h, find?_settle_ok hheld, if_pos rfl]
      exact ⟨_, rfl, rfl, .inr rfl⟩

/-- Getting a key keeps a property that the computed value has. -/
theorem Holds.getOrCompute (h : c.Holds P)
    (hcompute : ∀ m' value, (compute m').1 = .ok value → P key value) :
    (c.getOrCompute m key now compute).2.1.Holds P := by
  intro other entry hentry
  rcases find?_getOrCompute hentry with hkept | ⟨rfl, m', value, hresult, rfl⟩
  · exact h hkept
  · exact hcompute m' value hresult

/-- What is got has the property too. -/
theorem Holds.of_getOrCompute (h : c.Holds P)
    (hcompute : ∀ m' value, (compute m').1 = .ok value → P key value) {value : α}
    (hvalue : (c.getOrCompute m key now compute).1 = .ok value) : P key value := by
  rcases getOrCompute_fst c m key now compute with ⟨entry, hentry, hserved⟩ | ⟨m', hresult⟩
  · rw [hvalue, Except.ok.injEq] at hserved
    rw [hserved]
    exact h hentry
  · exact hcompute m' value (hresult.symm.trans hvalue)

/-- Where everything kept for a key is what the computation gives, getting the key gives
what the computation gives. -/
theorem Holds.getOrCompute_eq (h : c.Holds P) {result : Except ε α}
    (hkept : ∀ value, P key value → result = .ok value)
    (hcompute : ∀ m', (compute m').1 = result) :
    (c.getOrCompute m key now compute).1 = result := by
  rcases getOrCompute_fst c m key now compute with ⟨entry, hentry, hserved⟩ | ⟨m', hresult⟩
  · rw [hserved, hkept _ (h hentry)]
  · rw [hresult, hcompute]

/-- What is left after a class was dropped belongs to other classes. -/
theorem Holds.invalidateClass (h : c.Holds P) (m : Metrics) (cls : ResourceClass) :
    (c.invalidateClass m cls).2.1.Holds fun key value => key.cls ≠ cls ∧ P key value := by
  intro key entry hentry
  rw [find?_invalidateClass] at hentry
  by_cases hcls : key.cls = cls
  · simp [hcls] at hentry
  · rw [if_neg hcls] at hentry
    exact ⟨hcls, h hentry⟩

theorem Holds.purge (h : c.Holds P) (m : Metrics) (now : Tick) :
    (c.purge m now).2.1.Holds P :=
  fun _ _ hentry => h (find?_of_find?_retain hentry)

end

end AccessCache

end ControlPlane
