/-
# Many callers of one cache

Callers of one cache run at the same time. What a caller does falls into sections, each of them
under a lock: it looks the slot of its key up, or creates it; it locks the slot and serves what is
there, or finds the slot retired and looks again, or begins to compute and keeps the lock; it ends
the computation. An invalidation takes slots out of the map, then retires them one by one and
takes the entry of each as soon as its lock is free. A purge does all of its work in one section
and passes over the slots that are locked. Between two sections of one call anything may happen.

A slot therefore outlives its place in the map: callers that have looked it up go on using it.
Slots and calls carry a history, which no section reads: when a slot was created and taken out of
the map, who computed its entry, when a call started, looked its slot up and began to compute.

A call whose sections nothing comes between does what the operation of an access cache does.
-/

import ControlPlane.Proofs.Cache.Entries
import Mathlib.Logic.Function.Basic

namespace ControlPlane

open Std (ExtTreeMap)

/-! ## Calls -/

/-- What a caller asks of a cache. -/
inductive CacheOp
  | get (key : CacheKey)
  | peek (key : CacheKey)
  | invalidateClass (cls : ResourceClass)
  | invalidateAll
  | purge

namespace CacheOp

/-- The key that a caller asks for. -/
def key? : CacheOp → Option CacheKey
  | get key | peek key => some key
  | invalidateClass _ | invalidateAll | purge => none

/-- Whether an operation invalidates a key. -/
def invalidates : CacheOp → CacheKey → Bool
  | invalidateClass cls, key => key.cls == cls
  | invalidateAll, _ => true
  | get _, _ | peek _, _ | purge, _ => false

end CacheOp

/-- How far a call is. Slots and calls are known by numbers. -/
inductive CallStage (α ε : Type)
  /-- It is about to look the slot of its key up. -/
  | seeking
  /-- It has a slot and waits for its lock. -/
  | queued (slot : Nat)
  | computing (slot : Nat)
  /-- It is about to take slots out of the map. -/
  | dropping
  /-- It has read the clock and is about to purge by that reading. -/
  | sweeping (now : Tick)
  /-- Slots that it took out of the map are still to be retired. -/
  | retiring (slots : List Nat) (dropped : Nat)
  /-- It waits for the lock of a slot that it has retired. -/
  | emptying (slot : Nat) (slots : List Nat) (dropped : Nat)
  /-- It has a value from a slot, which a call had computed. -/
  | served (slot author : Nat) (value : α)
  | missed
  | failed (cause : ε)
  /-- It has returned how many entries it dropped. -/
  | dropped (count returned : Nat)

/-- Where a call begins. -/
def CacheOp.firstStage {α ε : Type} : CacheOp → CallStage α ε
  | get _ | peek _ => .seeking
  | invalidateClass _ | invalidateAll | purge => .dropping

structure CacheCall (α ε : Type) where
  op : CacheOp
  stage : CallStage α ε
  started : Nat
  /-- When it last looked its slot up. -/
  found : Nat := 0
  /-- When its computation began. -/
  begun : Option Nat := none
  /-- When it took the slots out of the map. -/
  detached : Option Nat := none

/-! ## Slots -/

/-- The place of one key, as callers share it. -/
structure SharedSlot (α : Type) where
  key : CacheKey
  entry : Option (CacheEntry α) := none
  /-- The call that keeps the slot locked while it computes. -/
  holder : Option Nat := none
  isRetired : Bool := false
  /-- The call that computed the entry. -/
  author : Nat := 0
  created : Nat
  /-- When the slot was taken out of the map, and by which call. -/
  left : Option (Nat × Nat) := none

namespace SharedSlot

variable {α : Type}

/-- What a cache that has the slot in its map has under the key. -/
def content (slot : SharedSlot α) : CacheSlot α where
  entry := slot.entry
  isComputing := slot.holder.isSome

/-- The value that may be served now. -/
def live? (slot : SharedSlot α) (now : Tick) (maxAge : Duration) : Option α :=
  (slot.entry.filter fun entry => entry.isLive now maxAge).map (·.value)

end SharedSlot

/-! ## The shared cache -/

/-- A cache, all slots there ever were, and the calls. Time counts the sections. -/
structure SharedCache (α ε : Type) where
  settings : CacheSettings
  map : ExtTreeMap CacheKey Nat := ∅
  slots : Nat → Option (SharedSlot α) := fun _ => none
  calls : Nat → Option (CacheCall α ε) := fun _ => none
  time : Nat := 0
  hits : UInt64 := 0
  misses : UInt64 := 0
  evictions : UInt64 := 0

namespace SharedCache

variable {α ε : Type}

/-- A new cache. -/
def new (settings : CacheSettings) : SharedCache α ε where
  settings

/-- A call is now as given, and time goes on. -/
def put (w : SharedCache α ε) (n : Nat) (c : CacheCall α ε) : SharedCache α ε :=
  { w with calls := Function.update w.calls n (some c), time := w.time + 1 }

@[simp]
theorem calls_put (w : SharedCache α ε) (n : Nat) (c : CacheCall α ε) :
    (w.put n c).calls n = some c :=
  Function.update_self ..

def setSlot (w : SharedCache α ε) (s : Nat) (slot : SharedSlot α) : SharedCache α ε :=
  { w with slots := Function.update w.slots s (some slot) }

/-- What is left of a slot when a call takes slots out of the map. -/
def leave (w : SharedCache α ε) (n : Nat) (gone : CacheKey → Nat → Bool) (retire : Bool) (s : Nat)
    (slot : SharedSlot α) : SharedSlot α :=
  if w.map[slot.key]? = some s ∧ gone slot.key s = true then
    { slot with left := some (w.time, n), isRetired := slot.isRetired || retire }
  else slot

/-- A call takes slots out of the map, and may retire them at once. -/
def detach (w : SharedCache α ε) (n : Nat) (gone : CacheKey → Nat → Bool) (retire : Bool) :
    SharedCache α ε :=
  { w with
    map := w.map.filter fun key s => !gone key s
    slots := fun s => (w.slots s).map (w.leave n gone retire s) }

/-- Some of the slots in the map, in any order. -/
def inMap (w : SharedCache α ε) (chosen : CacheKey → Nat → Bool) : List Nat :=
  (w.map.filter chosen).toList.map (·.2)

theorem mem_inMap_iff {w : SharedCache α ε} {chosen : CacheKey → Nat → Bool} {s : Nat} :
    s ∈ w.inMap chosen ↔ ∃ key, w.map[key]? = some s ∧ chosen key s = true := by
  simp only [inMap, List.mem_map, Prod.exists, ExtTreeMap.mem_toList_iff_getElem?_eq_some,
    ExtTreeMap.getElem?_filter', Option.filter_eq_some_iff]
  constructor
  · rintro ⟨key, other, hmem, rfl⟩
    exact ⟨key, hmem⟩
  · rintro ⟨key, hmem⟩
    exact ⟨key, s, hmem, rfl⟩

/-- Whether a purge by a reading of the clock takes a slot out of the map. -/
def isSwept (w : SharedCache α ε) (now : Tick) (s : Nat) : Bool :=
  (w.slots s).all fun slot =>
    slot.holder.isNone && slot.entry.all fun entry => !entry.isLive now w.settings.maxAge

/-- How many of some slots have an entry. -/
def entryCount (w : SharedCache α ε) (slots : List Nat) : Nat :=
  slots.countP fun s => (w.slots s).any (·.entry.isSome)

def recordEvictions (w : SharedCache α ε) (dropped : Nat) : SharedCache α ε :=
  { w with evictions := w.evictions + UInt64.ofNat dropped }

/-- A call of an operation that is at a stage. -/
structure At (w : SharedCache α ε) (n : Nat) (c : CacheCall α ε) (op : CacheOp)
    (stage : CallStage α ε) : Prop where
  call : w.calls n = some c
  op : c.op = op
  stage : c.stage = stage

/-- A slot whose lock is free. -/
structure Free (w : SharedCache α ε) (s : Nat) (slot : SharedSlot α) : Prop where
  found : w.slots s = some slot
  holder : slot.holder = none

/-- One section of one call. The clock may read anything at any time. -/
inductive Step (w : SharedCache α ε) : SharedCache α ε → Prop
  | start {n : Nat} (op : CacheOp) (hfresh : w.calls n = none) :
      w.Step (w.put n { op, stage := op.firstStage, started := w.time })
  /-- The key has a slot. -/
  | find {n c op key s} (hat : w.At n c op .seeking) (hkey : op.key? = some key)
      (hslot : w.map[key]? = some s) :
      w.Step (w.put n { c with stage := .queued s, found := w.time })
  /-- The key has no slot, and a new one is put into the map. -/
  | create {n c key s} (hat : w.At n c (.get key) .seeking) (hnone : w.map[key]? = none)
      (hfresh : w.slots s = none) :
      w.Step ((setSlot { w with map := w.map.insert key s } s { key, created := w.time }).put n
        { c with stage := .queued s, found := w.time })
  /-- Looking at a key does not create its slot. -/
  | miss {n c key} (hat : w.At n c (.peek key) .seeking) (hnone : w.map[key]? = none) :
      w.Step (w.put n { c with stage := .missed })
  /-- The slot was retired while the call waited for it. -/
  | retry {n c key s slot} (hat : w.At n c (.get key) (.queued s)) (hfree : w.Free s slot)
      (hretired : slot.isRetired = true) :
      w.Step (w.put n { c with stage := .seeking })
  | hit {n c key s slot value} (hat : w.At n c (.get key) (.queued s)) (hfree : w.Free s slot)
      (hretired : slot.isRetired = false) (now : Tick)
      (hlive : slot.live? now w.settings.maxAge = some value) :
      w.Step (put { w with hits := w.hits + 1 } n { c with stage := .served s slot.author value })
  /-- There is nothing to serve, so the call computes and keeps the lock. -/
  | begin {n c key s slot} (hat : w.At n c (.get key) (.queued s)) (hfree : w.Free s slot)
      (hretired : slot.isRetired = false) (now : Tick)
      (hlive : slot.live? now w.settings.maxAge = none) :
      w.Step ((setSlot { w with misses := w.misses + 1 } s { slot with holder := some n }).put n
        { c with stage := .computing s, begun := some w.time })
  /-- A value is stored, whether or not the slot is still in the map. -/
  | store {n c key s slot} (hat : w.At n c (.get key) (.computing s))
      (hslot : w.slots s = some slot) (now : Tick) (value : α) :
      w.Step ((w.setSlot s
          { slot with
            holder := none
            author := n
            entry := some (.store value now w.settings.ttl) }).put n
        { c with stage := .served s n value })
  /-- A failed computation stores nothing. -/
  | fail {n c key s slot} (hat : w.At n c (.get key) (.computing s))
      (hslot : w.slots s = some slot) (cause : ε) :
      w.Step ((w.setSlot s { slot with holder := none }).put n { c with stage := .failed cause })
  /-- Looking at a slot does not ask whether it is retired. -/
  | see {n c key s slot value} (hat : w.At n c (.peek key) (.queued s)) (hfree : w.Free s slot)
      (now : Tick) (hlive : slot.live? now w.settings.maxAge = some value) :
      w.Step (w.put n { c with stage := .served s slot.author value })
  | seeNothing {n c key s slot} (hat : w.At n c (.peek key) (.queued s)) (hfree : w.Free s slot)
      (now : Tick) (hlive : slot.live? now w.settings.maxAge = none) :
      w.Step (w.put n { c with stage := .missed })
  /-- An invalidation takes the slots that it concerns out of the map. -/
  | detach {n c op} (hat : w.At n c op .dropping) (hop : op ≠ .purge) :
      w.Step ((w.detach n (fun key _ => op.invalidates key) false).put n
        { c with
          stage := .retiring (w.inMap fun key _ => op.invalidates key) 0
          detached := some w.time })
  /-- An invalidation retires its slots in any order. -/
  | retire {n c op s slots dropped slot} (hat : w.At n c op (.retiring slots dropped))
      (hmem : s ∈ slots) (hslot : w.slots s = some slot) :
      w.Step ((w.setSlot s { slot with isRetired := true }).put n
        { c with stage := .emptying s (slots.erase s) dropped })
  | empty {n c op s slots dropped slot} (hat : w.At n c op (.emptying s slots dropped))
      (hfree : w.Free s slot) :
      w.Step ((w.setSlot s { slot with entry := none }).put n
        { c with stage := .retiring slots (dropped + w.entryCount [s]) })
  | finish {n c op slots dropped} (hat : w.At n c op (.retiring slots dropped))
      (hdone : slots = []) :
      w.Step ((w.recordEvictions dropped).put n
        { c with stage := .dropped dropped w.time })
  /-- A purge reads the clock before it has the map. -/
  | readClock {n c} (hat : w.At n c .purge .dropping) (now : Tick) :
      w.Step (w.put n { c with stage := .sweeping now })
  | sweep {n c now dropped} (hat : w.At n c .purge (.sweeping now))
      (hdropped : dropped = w.entryCount (w.inMap fun _ s => w.isSwept now s)) :
      w.Step (((w.detach n (fun _ s => w.isSwept now s) true).recordEvictions dropped).put n
        { c with stage := .dropped dropped w.time })

/-- What callers of a new cache can bring about. -/
inductive Reaches (settings : CacheSettings) : SharedCache α ε → Prop
  | new : Reaches settings (new settings)
  | step {w w' : SharedCache α ε} (hreaches : Reaches settings w) (hstep : w.Step w') :
      Reaches settings w'

end SharedCache

end ControlPlane
