/-
# The access cache

Derived data is kept under a class and a subject until it expires. An entry is served
only while its expiry lies ahead, and no further ahead than a bound: an entry that
expires later than that was stored before the clock was set back. A failed computation
stores nothing but leaves its slot; while a computation runs its slot is held, so that
purging passes over it.

The operations follow the sections that are atomic under locks: `lookup` decides
between serving and computing, `settle` ends a computation.
-/

import ControlPlane.Metrics
import ControlPlane.ResourceClass
import ControlPlane.Time

namespace ControlPlane

open Std (ExtTreeMap)

/-- Where an entry is kept. -/
structure CacheKey where
  cls : ResourceClass
  /-- What or whom the value was derived for. -/
  subject : String
deriving DecidableEq

namespace CacheKey

instance : Ord CacheKey := ⟨compareThen (compareBy cls) (compareBy subject)⟩

instance : Std.TransOrd CacheKey :=
  transCmp_compareThen (transCmp_compareBy cls) (transCmp_compareBy subject)

instance : Std.LawfulEqOrd CacheKey :=
  have _ := transCmp_compareBy cls
  have _ := transCmp_compareBy subject
  lawfulEqCmp_compareThen inferInstance inferInstance fun a b h h' => by
    have hcls := Std.LawfulEqCmp.eq_of_compare (show compare a.cls b.cls = .eq from h)
    have hsubject := Std.LawfulEqCmp.eq_of_compare (show compare a.subject b.subject = .eq from h')
    cases a; cases b; cases hcls; cases hsubject; rfl

end CacheKey

/-- A value, the instant it was stored and the instant it expires. -/
structure CacheEntry (α : Type) where
  value : α
  storedAt : Tick
  expiresAt : Tick
deriving DecidableEq

namespace CacheEntry

variable {α : Type}

/-- A value stored now. -/
def store (value : α) (now : Tick) (ttl : Duration) : CacheEntry α :=
  ⟨value, now, now.add ttl⟩

/-- Whether an entry may be served now. -/
def isLive (entry : CacheEntry α) (now : Tick) (maxAge : Duration) : Bool :=
  now.isBefore entry.expiresAt
    && decide ((now.millisUntil entry.expiresAt).toNat ≤ maxAge.millis.toNat)

end CacheEntry

/-- The place of one key. -/
structure CacheSlot (α : Type) where
  entry : Option (CacheEntry α) := none
  /-- Whether a computation holds the slot. -/
  isComputing : Bool := false
deriving DecidableEq

/-- How long entries are kept. -/
structure CacheSettings where
  /-- The lifetime of a new entry. -/
  ttl : Duration := .ofSeconds 3600
  /-- The longest lifetime that an entry can plausibly have left. -/
  maxAge : Duration := .ofSeconds 3600
deriving DecidableEq

/-- A cache of values of one type. -/
structure AccessCache (α : Type) where
  name : String
  settings : CacheSettings := {}
  /-- Whether lookups and evictions are also counted in the metrics. -/
  isMetered : Bool := true
  slots : ExtTreeMap CacheKey (CacheSlot α) := ∅
  hits : UInt64 := 0
  misses : UInt64 := 0
  evictions : UInt64 := 0
deriving DecidableEq

/-- What a cache says about itself. -/
structure CacheStats where
  entries : Nat
  slotsByTag : ExtTreeMap String Nat
  hits : UInt64
  misses : UInt64
  evictions : UInt64

namespace AccessCache

variable {α : Type}

/-- Count something in the metrics if the cache is metered. -/
def meter (c : AccessCache α) (m : Metrics) (name : String) (amount : UInt64) : Metrics :=
  if c.isMetered then m.count name amount else m

/-- The entry of a key, live or not. -/
def find? (c : AccessCache α) (key : CacheKey) : Option (CacheEntry α) :=
  c.slots[key]?.bind (·.entry)

/-- The value that may be served for a key now. Looking at it is not counted. -/
def peek (c : AccessCache α) (key : CacheKey) (now : Tick) : Option α :=
  ((c.find? key).filter fun entry => entry.isLive now c.settings.maxAge).map (·.value)

/-- Ask for a key: a value that may be served, or the slot, held for a computation. -/
def lookup (c : AccessCache α) (m : Metrics) (key : CacheKey) (now : Tick) :
    Option α × AccessCache α × Metrics :=
  match c.peek key now with
  | some value =>
      (some value, { c with hits := c.hits + 1 }, c.meter m Metrics.cacheHits 1)
  | none =>
      (none,
        { c with
          misses := c.misses + 1
          slots := c.slots.alter key fun slot =>
            some { slot.getD {} with isComputing := true } },
        c.meter m Metrics.cacheMisses 1)

/-- End the computation of a key: a value is stored now, a failure leaves the slot's
entry as it was. A slot that is no longer there stays away. -/
def settle {ε : Type} (c : AccessCache α) (key : CacheKey) (now : Tick) (result : Except ε α) :
    AccessCache α :=
  { c with
    slots := c.slots.modify key fun slot =>
      { entry :=
          match result with
          | .ok value => some (.store value now c.settings.ttl)
          | .error _ => slot.entry } }

/-- Serve a key from the cache, or compute it with nothing else going on. -/
def getOrCompute {ε : Type} (c : AccessCache α) (m : Metrics) (key : CacheKey) (now : Tick)
    (compute : Metrics → Except ε α × Metrics) : Except ε α × AccessCache α × Metrics :=
  match c.lookup m key now with
  | (some value, c, m) => (.ok value, c, m)
  | (none, c, m) =>
      let (result, m) := compute m
      (result, c.settle key now result, m)

/-- Count dropped entries; nothing dropped is not worth counting. -/
def recordEvictions (c : AccessCache α) (m : Metrics) (dropped : Nat) : AccessCache α × Metrics :=
  if dropped = 0 then (c, m)
  else
    ({ c with evictions := c.evictions + UInt64.ofNat dropped },
      c.meter m Metrics.cacheEvictions (UInt64.ofNat dropped))

/-- How many of some slots hold an entry. -/
def entryCount (slots : ExtTreeMap CacheKey (CacheSlot α)) : Nat :=
  slots.toList.countP fun slot => slot.2.entry.isSome

/-- Keep only some slots, and tell how many entries went with the others. -/
def retain (c : AccessCache α) (m : Metrics) (keep : CacheKey → CacheSlot α → Bool) :
    Nat × AccessCache α × Metrics :=
  let dropped := entryCount (c.slots.filter fun key slot => !keep key slot)
  (dropped, { c with slots := c.slots.filter keep }.recordEvictions m dropped)

/-- Drop every slot of a class. -/
def invalidateClass (c : AccessCache α) (m : Metrics) (cls : ResourceClass) :
    Nat × AccessCache α × Metrics :=
  c.retain m fun key _ => key.cls != cls

/-- Drop every slot. -/
def invalidateAll (c : AccessCache α) (m : Metrics) : Nat × AccessCache α × Metrics :=
  c.retain m fun _ _ => false

/-- Whether a purge passes over a slot: it is held, or its entry may still be served. -/
def survivesPurge (c : AccessCache α) (now : Tick) (slot : CacheSlot α) : Bool :=
  slot.isComputing || slot.entry.any fun entry => entry.isLive now c.settings.maxAge

/-- Drop every slot whose entry can no longer be served, and every empty slot. -/
def purge (c : AccessCache α) (m : Metrics) (now : Tick) : Nat × AccessCache α × Metrics :=
  c.retain m fun _ slot => c.survivesPurge now slot

/-- How many slots hold an entry or are held by a computation. -/
def size (c : AccessCache α) : Nat :=
  c.slots.toList.countP fun slot => slot.2.isComputing || slot.2.entry.isSome

/-- How many slots each class has, for the classes that have any. -/
def slotsByClass (c : AccessCache α) : ExtTreeMap ResourceClass Nat :=
  c.slots.foldl (fun counts key _ => counts.alter key.cls fun n => some (n.getD 0 + 1)) ∅

/-- How many slots each class has, under the tags of the classes. -/
def slotsByTag (c : AccessCache α) : ExtTreeMap String Nat :=
  ExtTreeMap.ofList (c.slotsByClass.toList.map fun entry => (entry.1.tag, entry.2))

def stats (c : AccessCache α) : CacheStats where
  entries := c.slotsByTag.foldl (fun total _ count => total + count) 0
  slotsByTag := c.slotsByTag
  hits := c.hits
  misses := c.misses
  evictions := c.evictions

end AccessCache

end ControlPlane
