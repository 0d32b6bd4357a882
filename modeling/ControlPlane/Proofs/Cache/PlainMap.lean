/-
# The access cache is a plain map

The specification of a cache is a map from keys to values with the instants they were
stored at. It has no slots and no expiry instants: whether something stored may be served
is decided when it is asked for, in unbounded arithmetic. Which keys are being computed is
kept beside the map, as a set.

The access cache represents such a map if it has the same keys with the same values and
instants, and holds exactly the slots of the keys that are being computed. Every operation
keeps that, so a script cannot tell the two apart.
-/

import ControlPlane.Proofs.Cache.Script

namespace ControlPlane

open Std (ExtTreeMap ExtTreeSet)

variable {α ε : Type}

/-- A value and the instant it was stored. -/
structure Stored (α : Type) where
  value : α
  storedAt : Tick

namespace Stored

/-- The millisecond at which something stored expires; the clock shows none later. -/
def expiry (settings : CacheSettings) (stored : Stored α) : Nat :=
  min (stored.storedAt.ms.toNat + settings.ttl.millis.toNat) (UInt64.size - 1)

/-- Whether something stored may be served: its expiry lies ahead, and no further ahead
than the bound. -/
def isLive (settings : CacheSettings) (now : Tick) (stored : Stored α) : Bool :=
  decide (now.ms.toNat < stored.expiry settings ∧
    stored.expiry settings ≤ now.ms.toNat + settings.maxAge.millis.toNat)

/-- The cache entry of something stored. -/
def entry (settings : CacheSettings) (stored : Stored α) : CacheEntry α :=
  .store stored.value stored.storedAt settings.ttl

theorem expiresAt_entry (settings : CacheSettings) (stored : Stored α) :
    (stored.entry settings).expiresAt.ms.toNat = stored.expiry settings :=
  stored.storedAt.toNat_add settings.ttl

/-- The saturating words of an entry decide as unbounded arithmetic does. -/
theorem isLive_entry (settings : CacheSettings) (now : Tick) (stored : Stored α) :
    (stored.entry settings).isLive now settings.maxAge = stored.isLive settings now := by
  simp only [CacheEntry.isLive, Tick.isBefore, Tick.toNat_millisUntil, expiresAt_entry, isLive,
    ← Bool.decide_and]
  congr 1
  apply propext
  omega

end Stored

/-- The specification of a cache. -/
structure PlainCache (α : Type) where
  stored : ExtTreeMap CacheKey (Stored α) := ∅
  /-- The keys whose computations are running. -/
  computing : ExtTreeSet CacheKey := ∅
  now : Tick

namespace PlainCache

/-- The value that is served for a key now. -/
def served? (settings : CacheSettings) (p : PlainCache α) (key : CacheKey) : Option α :=
  (p.stored[key]?.filter (·.isLive settings p.now)).map (·.value)

/-- Whether a key that satisfies `concerned` is being computed. -/
def computesAny (p : PlainCache α) (concerned : CacheKey → Bool) : Bool :=
  p.computing.toList.any concerned

/-- Keep only some of what is stored, and tell how much went. -/
def keep (p : PlainCache α) (kept : CacheKey → Stored α → Bool) : Nat × PlainCache α :=
  ((p.stored.filter fun key stored => !kept key stored).size,
    { p with stored := p.stored.filter kept })

/-- A plain map as a cache. A computation runs exactly if nothing is served; a value it
gives replaces what is stored, an error does not. -/
def machine (settings : CacheSettings) : CacheMachine α ε (PlainCache α) where
  lookup key p :=
    if p.computing.contains key then none
    else
      match p.served? settings key with
      | some value => some (some value, p)
      | none => some (none, { p with computing := p.computing.insert key })
  settle key result p :=
    { p with
      stored :=
        match result with
        | .ok value => p.stored.insert key ⟨value, p.now⟩
        | .error _ => p.stored
      computing := p.computing.erase key }
  peek key p := if p.computing.contains key then none else some (p.served? settings key)
  invalidateClass cls p :=
    if p.computesAny (·.cls == cls) then none else some (p.keep fun key _ => key.cls != cls)
  invalidateAll p :=
    if p.computesAny (fun _ => true) then none else some (p.keep fun _ _ => false)
  purge p := p.keep fun key stored => p.computing.contains key || stored.isLive settings p.now
  moveClock move p := { p with now := move p.now }

end PlainCache

/-- An access cache with everything around it represents a plain map while some keys are
being computed. -/
structure Represents (settings : CacheSettings) (keys : ExtTreeSet CacheKey) (s : CacheState α)
    (p : PlainCache α) : Prop where
  now_eq : s.now = p.now
  settings_eq : s.cache.settings = settings
  find?_eq (key : CacheKey) : s.cache.find? key = p.stored[key]?.map (·.entry settings)
  isHeld_eq (key : CacheKey) : s.cache.isHeld key = keys.contains key
  computing_eq : p.computing = keys

namespace Represents

variable {settings : CacheSettings} {keys : ExtTreeSet CacheKey} {s : CacheState α}
  {p : PlainCache α}

/-- What may be served is the same on both sides. -/
theorem peek_eq (h : Represents settings keys s p) (key : CacheKey) :
    s.cache.peek key s.now = p.served? settings key := by
  rw [AccessCache.peek, PlainCache.served?, h.find?_eq, h.now_eq, h.settings_eq]
  cases p.stored[key]? with
  | none => rfl
  | some stored =>
      simp only [Option.map_some, Option.filter_some, Stored.isLive_entry]
      split <;> rfl

theorem holdsAny_eq (h : Represents settings keys s p) (concerned : CacheKey → Bool) :
    s.cache.holdsAny concerned = p.computesAny concerned := by
  rw [Bool.eq_iff_iff, AccessCache.holdsAny_eq_true_iff, PlainCache.computesAny, h.computing_eq]
  simp [h.isHeld_eq]

/-- A slot and what is stored in it have the same entry left if they agree on staying. -/
private theorem bind_filter_eq {slot? : Option (CacheSlot α)} {stored? : Option (Stored α)}
    {stays : CacheSlot α → Bool} {stays' : Stored α → Bool}
    (hentry : slot?.bind (·.entry) = stored?.map (·.entry settings))
    (hagree : ∀ slot stored, slot? = some slot → stored? = some stored →
      stays slot = stays' stored) :
    (slot?.filter stays).bind (·.entry) = (stored?.filter stays').map (·.entry settings) := by
  cases slot? with
  | none =>
      cases stored? with
      | none => rfl
      | some stored => simp at hentry
  | some slot =>
      cases stored? with
      | none =>
          have hempty : slot.entry = none := by simpa using hentry
          cases hstays : stays slot <;> simp [hstays, hempty]
      | some stored =>
          have hsame := hagree slot stored rfl rfl
          have hfull : slot.entry = some (stored.entry settings) := by simpa using hentry
          cases hstays : stays slot <;> simp [Option.filter, hstays, ← hsame, hfull]

/-- Both sides forget as much, if they agree on what to keep and nothing that is held goes. -/
theorem retain (h : Represents settings keys s p) {keep : CacheKey → CacheSlot α → Bool}
    {kept : CacheKey → Stored α → Bool}
    (hagree : ∀ key slot stored, s.cache.slots[key]? = some slot →
      p.stored[key]? = some stored → keep key slot = kept key stored)
    (hheld : ∀ key slot, s.cache.slots[key]? = some slot → slot.isComputing = true →
      keep key slot = true) :
    SameAnswer (Represents settings keys) (s.answer (s.cache.retain s.metrics keep))
      (p.keep kept) := by
  constructor
  · change AccessCache.entryCount _ = ExtTreeMap.size _
    -- The entries that go are the values of one map on both sides.
    rw [AccessCache.entryCount_eq_size, ← ExtTreeMap.size_map (f := fun _ => Stored.entry settings)]
    congr 1
    apply ExtTreeMap.ext_getElem?
    intro key
    rw [ExtTreeMap.getElem?_filterMap', ExtTreeMap.getElem?_map, ExtTreeMap.getElem?_filter',
      ExtTreeMap.getElem?_filter']
    apply bind_filter_eq (h.find?_eq key)
    intro slot stored hslot hstored
    rw [hagree key slot stored hslot hstored]
  · constructor
    · exact h.now_eq
    · exact (AccessCache.settings_retain ..).trans h.settings_eq
    · intro key
      change (AccessCache.retain ..).2.1.find? key = (p.stored.filter kept)[key]?.map _
      rw [AccessCache.find?, AccessCache.slots_retain, ExtTreeMap.getElem?_filter']
      exact bind_filter_eq (h.find?_eq key) (hagree key)
    · intro key
      rw [← h.isHeld_eq]
      change (AccessCache.retain ..).2.1.isHeld key = _
      rw [AccessCache.isHeld, AccessCache.slots_retain, AccessCache.isHeld]
      cases hslot : s.cache.slots[key]? with
      | none => rfl
      | some slot =>
          have hkeep := hheld key slot hslot
          cases hcomputing : slot.isComputing <;> simp_all
    · exact h.computing_eq

/-- A value that may be served is served, and nothing else changes. -/
theorem lookup_hit (h : Represents settings keys s p) {key : CacheKey} {value : α}
    (hserved : p.served? settings key = some value) :
    let answer := s.answer (s.cache.lookup s.metrics key s.now)
    answer.1 = some value ∧ Represents settings keys answer.2 p := by
  rw [AccessCache.lookup_of_peek_eq_some ((h.peek_eq key).trans hserved)]
  exact ⟨rfl, { h with }⟩

/-- A key that is looked up in vain is then being computed. -/
theorem lookup_miss (h : Represents settings keys s p) {key : CacheKey}
    (hserved : p.served? settings key = none) :
    let answer := s.answer (s.cache.lookup s.metrics key s.now)
    answer.1 = none ∧
      Represents settings (keys.insert key) answer.2
        { p with computing := p.computing.insert key } := by
  rw [AccessCache.lookup_of_peek_eq_none ((h.peek_eq key).trans hserved)]
  refine ⟨rfl, h.now_eq, h.settings_eq, fun other => ?_, fun other => ?_, ?_⟩
  · exact (AccessCache.find?_hold ..).trans (h.find?_eq other)
  · refine (AccessCache.isHeld_hold ..).trans ?_
    rw [h.isHeld_eq, ExtTreeSet.contains_insert]
    simp [Bool.beq_eq_decide_eq]
  · exact congrArg (·.insert key) h.computing_eq

/-- What a computation gives is stored at the instant it ends; an error changes nothing. -/
theorem settle {key : CacheKey} (hfree : key ∉ keys)
    (h : Represents settings (keys.insert key) s p) (result : Except ε α) :
    Represents settings keys (AccessCache.machine.settle key result s)
      ((PlainCache.machine settings).settle key result p) := by
  have hheld : s.cache.isHeld key = true := by
    rw [h.isHeld_eq]
    exact ExtTreeSet.contains_insert_self
  refine ⟨h.now_eq, h.settings_eq, fun other => ?_, fun other => ?_, ?_⟩
  · cases result with
    | ok value =>
        change (s.cache.settle (ε := ε) key s.now (.ok value)).find? other =
          (p.stored.insert key ⟨value, p.now⟩)[other]?.map _
        rw [AccessCache.find?_settle_ok hheld, ExtTreeMap.getElem?_insert, h.find?_eq,
          h.settings_eq, h.now_eq]
        by_cases heq : key = other <;> simp [heq, Stored.entry]
    | error cause =>
        exact (AccessCache.find?_settle_error s.cache key s.now cause other).trans
          (h.find?_eq other)
  · refine (AccessCache.isHeld_settle ..).trans ?_
    rw [h.isHeld_eq, ExtTreeSet.contains_insert]
    by_cases heq : key = other
    · subst heq
      simpa [Bool.eq_false_iff] using hfree
    · simp [heq]
  · apply ExtTreeSet.ext_mem
    intro other
    change other ∈ p.computing.erase key ↔ other ∈ keys
    rw [h.computing_eq, ExtTreeSet.mem_erase, ExtTreeSet.mem_insert]
    by_cases heq : key = other
    · subst heq
      simpa using hfree
    · simp [heq]

end Represents

/-- The access cache behaves as the plain map it represents, operation by operation. -/
theorem AccessCache.machine_simulates (settings : CacheSettings) :
    (AccessCache.machine (α := α) (ε := ε)).Simulates (Represents settings)
      (PlainCache.machine settings) where
  lookup {keys s p} h key := by
    simp only [AccessCache.machine, PlainCache.machine, h.isHeld_eq, h.computing_eq]
    by_cases hheld : keys.contains key = true
    · rw [if_pos hheld, if_pos hheld]
      exact .none
    · rw [if_neg hheld, if_neg hheld]
      cases hserved : p.served? settings key with
      | some value =>
          obtain ⟨hanswer, hstates⟩ := h.lookup_hit hserved
          exact .some ⟨hanswer, by simpa only [hanswer, Option.isSome_some, if_true]⟩
      | none =>
          obtain ⟨hanswer, hstates⟩ := h.lookup_miss hserved
          rw [h.computing_eq] at hstates
          refine .some ⟨hanswer, ?_⟩
          simp only [hanswer, Option.isSome_none, Bool.false_eq_true, if_false]
          exact ⟨hheld, hstates⟩
  settle hfree h result := h.settle hfree result
  peek {keys s p} h key := by
    simp only [AccessCache.machine, PlainCache.machine, h.isHeld_eq, h.computing_eq, h.peek_eq]
  invalidateClass {keys s p} h cls := by
    simp only [AccessCache.machine, PlainCache.machine, ← h.holdsAny_eq]
    by_cases hwaits : s.cache.holdsAny (·.cls == cls) = true
    · rw [if_pos hwaits, if_pos hwaits]
      exact .none
    · rw [if_neg hwaits, if_neg hwaits]
      refine .some (h.retain (fun _ _ _ _ _ => rfl) fun key slot hslot hcomputing => ?_)
      have hfree := AccessCache.concerned_eq_false_of_holdsAny (Bool.eq_false_iff.mpr hwaits)
        hslot hcomputing
      simpa using hfree
  invalidateAll {keys s p} h := by
    simp only [AccessCache.machine, PlainCache.machine, ← h.holdsAny_eq]
    by_cases hwaits : s.cache.holdsAny (fun _ => true) = true
    · rw [if_pos hwaits, if_pos hwaits]
      exact .none
    · rw [if_neg hwaits, if_neg hwaits]
      refine .some (h.retain (fun _ _ _ _ _ => rfl) fun key slot hslot hcomputing => ?_)
      have hfree := AccessCache.concerned_eq_false_of_holdsAny (Bool.eq_false_iff.mpr hwaits)
        hslot hcomputing
      cases hfree
  purge {keys s p} h := by
    apply h.retain
    · intro key slot stored hslot hstored
      have hentry := h.find?_eq key
      have hheld := h.isHeld_eq key
      simp only [AccessCache.find?, AccessCache.isHeld, hslot, hstored, Option.bind_some,
        Option.map_some, Option.any_some] at hentry hheld
      rw [AccessCache.survivesPurge, hentry, hheld, h.computing_eq, h.now_eq, h.settings_eq,
        Option.any_some, Stored.isLive_entry]
    · intro key slot hslot hcomputing
      simp [AccessCache.survivesPurge, hcomputing]
  moveClock {keys s p} h move :=
    { h with now_eq := congrArg move h.now_eq }

/-- A new cache represents the empty map. -/
theorem represents_new (name : String) (settings : CacheSettings) (isMetered : Bool)
    (metrics : Metrics) (now : Tick) :
    Represents settings ∅ { cache := { name, settings, isMetered : AccessCache α }, metrics, now }
      { now } where
  now_eq := rfl
  settings_eq := rfl
  find?_eq key := by simp [AccessCache.find?]
  isHeld_eq key := by simp [AccessCache.isHeld]
  computing_eq := rfl

/-- A new access cache is a plain map. Every script waits for itself on both or on neither,
and otherwise gets the same answers, runs the same computations and drops as many entries;
afterwards the cache has exactly the entries of the map. -/
theorem AccessCache.rel_run_plainCache (name : String) (settings : CacheSettings)
    (isMetered : Bool) (metrics : Metrics) (now : Tick) (script : CacheScript α ε) :
    Option.Rel (SameRun (Represents settings ∅))
      (script.run AccessCache.machine { cache := { name, settings, isMetered }, metrics, now })
      (script.run (PlainCache.machine settings) { now }) :=
  script.rel_run (AccessCache.machine_simulates settings)
    (represents_new name settings isMetered metrics now)

end ControlPlane
