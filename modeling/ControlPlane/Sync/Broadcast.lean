/-
# Announcements

An announcement drops, from everything that was registered, what depends on the changed
table, and then advances every affected host. What is registered twice is asked twice;
the second time it has nothing left to drop.
-/

import ControlPlane.Access.Cache
import ControlPlane.Sync.Gate
import ControlPlane.Sync.Invalidation

namespace ControlPlane

open Std (ExtTreeMap)

/-- Something whose data can be dropped by class, as a change of the state `σ` that
holds it. It tells how many entries went. -/
abbrev InvalidationTarget (σ : Type) := ResourceClass → σ → Nat × σ

/-- What an announcement did. -/
structure AnnounceReceipt where
  /-- The tags of the classes that were invalidated, in the order of the classes. -/
  classes : List String
  evicted : Nat
  hostSequences : ExtTreeMap HostId UInt64
deriving DecidableEq

namespace InvalidationTarget

variable {σ : Type}

/-- One of several caches that share their metrics; an index beyond them stands for nothing. -/
def cacheAt {α : Type} (index : Nat) : InvalidationTarget (List (AccessCache α) × Metrics) :=
  fun cls (caches, m) =>
    match caches[index]? with
    | none => (0, caches, m)
    | some cache =>
        let (dropped, cache, m) := cache.invalidateClass m cls
        (dropped, caches.set index cache, m)

/-- Drop a class from each target in turn. -/
def dropClass (targets : List (InvalidationTarget σ)) (cls : ResourceClass) (state : σ) :
    Nat × σ :=
  targets.foldl (fun (evicted, state) target =>
    let (dropped, state) := target cls state
    (evicted + dropped, state)) (0, state)

/-- Drop each class in turn from all targets. -/
def dropClasses (targets : List (InvalidationTarget σ)) (classes : List ResourceClass)
    (state : σ) : Nat × σ :=
  classes.foldl (fun (evicted, state) cls =>
    let (dropped, state) := dropClass targets cls state
    (evicted + dropped, state)) (0, state)

end InvalidationTarget

/-- Announce a change to the targets in a state and to a gate. -/
def announceTo {σ : Type} (rules : InvalidationRules) (targets : List (InvalidationTarget σ))
    (event : InvalidationEvent) (state : σ) (gate : Gate) : AnnounceReceipt × σ × Gate :=
  let classes := (rules.classesFor event.table).toList
  let (evicted, state) := InvalidationTarget.dropClasses targets classes state
  let (sequences, gate) := gate.advanceAll event.affectedHosts.toList
  ({ classes := classes.map (·.tag), evicted, hostSequences := ExtTreeMap.ofList sequences },
    state, gate)

end ControlPlane
