/-
# Lookups, one step at a time

The bridge keeps the catalog it last read and the views it built from it. A reset drops
both and starts a new generation. A lookup may be overtaken by resets while it reads
the registry, so it runs in steps, each of which sees the bridge as it then is: what was
read under one generation is kept only if that generation still runs. The lookup itself
is answered in any case.
-/

import ControlPlane.Protocol.Catalog

namespace ControlPlane

open Std (ExtTreeMap)

/-- What the bridge keeps between lookups. -/
structure Bridge where
  catalog : Option Catalog := none
  views : ExtTreeMap String View := ∅
  /-- How often the bridge was reset. -/
  generation : UInt64 := 0
deriving DecidableEq

/-- A lookup in progress: at a stage, or answered. -/
inductive Progress (stage answer : Type)
  | running (next : stage)
  | finished (result : Except Fault answer)

/-- Where a lookup of the catalog stands. -/
inductive CatalogStage
  | find
  | readGeneration
  | readVersions (generation : UInt64)
  | readTables (generation : UInt64) (versions : List ProtocolVersion) (index : ReleaseIndex)
  | publish (generation : UInt64) (versions : List ProtocolVersion) (index : ReleaseIndex)
      (tables : List TableDescriptor)

/-- Where a lookup of a view stands. -/
inductive ViewStage
  | find
  | readGeneration
  | fetchCatalog (generation : UInt64) (stage : CatalogStage)
  | build (generation : UInt64) (catalog : Catalog)
  | publish (generation : UInt64) (view : View)

namespace Bridge

/-- Drop the catalog and all views, and tell how many views there were. -/
def reset (bridge : Bridge) : Nat × Bridge :=
  (bridge.views.size, { generation := bridge.generation + 1 })

/-- Keep a catalog that was read under a generation, unless that generation is over or
another lookup has kept one already; the catalog kept then answers the lookup. -/
def keepCatalog (bridge : Bridge) (generation : UInt64) (loaded : Catalog) : Catalog × Bridge :=
  if bridge.generation ≠ generation then (loaded, bridge)
  else
    match bridge.catalog with
    | some kept => (kept, bridge)
    | none => (loaded, { bridge with catalog := some loaded })

/-- Keep a view that was built under a generation, in the same way. -/
def keepView (bridge : Bridge) (generation : UInt64) (token : String) (built : View) :
    View × Bridge :=
  if bridge.generation ≠ generation then (built, bridge)
  else
    match bridge.views[token]? with
    | some kept => (kept, bridge)
    | none => (built, { bridge with views := bridge.views.insert token built })

/-- One step of a lookup of the catalog. -/
def stepCatalog (registry : Registry) (bridge : Bridge) :
    CatalogStage → Progress CatalogStage Catalog × Bridge
  | .find =>
      match bridge.catalog with
      | some catalog => (.finished (.ok catalog), bridge)
      | none => (.running .readGeneration, bridge)
  | .readGeneration => (.running (.readVersions bridge.generation), bridge)
  | .readVersions generation =>
      match registry.versions with
      | .error fault => (.finished (.error fault), bridge)
      | .ok versions =>
          match ReleaseIndex.ofVersions versions with
          | .error fault => (.finished (.error fault), bridge)
          | .ok index => (.running (.readTables generation versions index), bridge)
  | .readTables generation versions index =>
      match registry.tables with
      | .error fault => (.finished (.error fault), bridge)
      | .ok tables => (.running (.publish generation versions index tables), bridge)
  | .publish generation versions index tables =>
      match Catalog.assemble versions index tables with
      | .error fault => (.finished (.error fault), bridge)
      | .ok loaded =>
          let (catalog, bridge) := bridge.keepCatalog generation loaded
          (.finished (.ok catalog), bridge)

/-- One step of a lookup of the view of a version. -/
def stepView (registry : Registry) (token : String) (bridge : Bridge) :
    ViewStage → Progress ViewStage View × Bridge
  | .find =>
      match bridge.views[token]? with
      | some view => (.finished (.ok view), bridge)
      | none => (.running .readGeneration, bridge)
  | .readGeneration => (.running (.fetchCatalog bridge.generation .find), bridge)
  | .fetchCatalog generation stage =>
      match bridge.stepCatalog registry stage with
      | (.running next, bridge) => (.running (.fetchCatalog generation next), bridge)
      | (.finished (.error fault), bridge) => (.finished (.error fault), bridge)
      | (.finished (.ok catalog), bridge) => (.running (.build generation catalog), bridge)
  | .build generation catalog =>
      match catalog.view token with
      | .error fault => (.finished (.error fault), bridge)
      | .ok view => (.running (.publish generation view), bridge)
  | .publish generation view =>
      let (view, bridge) := bridge.keepView generation token view
      (.finished (.ok view), bridge)

end Bridge

namespace CatalogStage

/-- An upper bound on the steps that are left. -/
def stepsLeft : CatalogStage → Nat
  | .find => 5
  | .readGeneration => 4
  | .readVersions _ => 3
  | .readTables .. => 2
  | .publish .. => 1

/-- Whether the tables of the registry have just been read and nothing was made of them. -/
def holdsTables : CatalogStage → Bool
  | .publish .. => true
  | _ => false

theorem stepsLeft_lt_of_step {registry : Registry} {bridge bridge' : Bridge}
    {stage next : CatalogStage}
    (h : bridge.stepCatalog registry stage = (.running next, bridge')) :
    next.stepsLeft < stage.stepsLeft := by
  cases stage <;> grind [Bridge.stepCatalog, stepsLeft]

end CatalogStage

namespace ViewStage

/-- An upper bound on the steps that are left. -/
def stepsLeft : ViewStage → Nat
  | .find => 9
  | .readGeneration => 8
  | .fetchCatalog _ stage => 2 + stage.stepsLeft
  | .build .. => 2
  | .publish .. => 1

/-- Whether the tables of the registry have just been read and nothing was made of them. -/
def holdsTables : ViewStage → Bool
  | .fetchCatalog _ stage => stage.holdsTables
  | _ => false

theorem stepsLeft_lt_of_step {registry : Registry} {token : String} {bridge bridge' : Bridge}
    {stage next : ViewStage}
    (h : bridge.stepView registry token stage = (.running next, bridge')) :
    next.stepsLeft < stage.stepsLeft := by
  cases stage with
  | find => grind [Bridge.stepView, stepsLeft]
  | readGeneration => grind [Bridge.stepView, stepsLeft, CatalogStage.stepsLeft]
  | fetchCatalog generation stage =>
    simp only [Bridge.stepView] at h
    split at h
    · rename_i inner bridge'' hinner
      have := CatalogStage.stepsLeft_lt_of_step hinner
      grind [stepsLeft]
    · simp at h
    · cases stage <;> grind [stepsLeft, CatalogStage.stepsLeft]
  | build generation catalog => grind [Bridge.stepView, stepsLeft]
  | publish generation view => grind [Bridge.stepView, stepsLeft]

end ViewStage

namespace Bridge

/-- Run a lookup of the catalog to its end, with nothing else going on. -/
def runCatalog (registry : Registry) (bridge : Bridge) (stage : CatalogStage) :
    Except Fault Catalog × Bridge :=
  match _h : bridge.stepCatalog registry stage with
  | (.running next, bridge) => bridge.runCatalog registry next
  | (.finished result, bridge) => (result, bridge)
termination_by stage.stepsLeft
decreasing_by exact CatalogStage.stepsLeft_lt_of_step ‹_›

/-- Run a lookup of the catalog until it has just read the tables of the registry, or to
its end if it does not read them. -/
def runCatalogToTables (registry : Registry) (bridge : Bridge) (stage : CatalogStage) :
    Progress CatalogStage Catalog × Bridge :=
  match _h : bridge.stepCatalog registry stage with
  | (.running next, bridge) =>
      if next.holdsTables then (.running next, bridge)
      else bridge.runCatalogToTables registry next
  | (.finished result, bridge) => (.finished result, bridge)
termination_by stage.stepsLeft
decreasing_by exact CatalogStage.stepsLeft_lt_of_step ‹_›

/-- Run a lookup of a view until it has just read the tables of the registry, or to its
end if it does not read them. -/
def runToTables (registry : Registry) (token : String) (bridge : Bridge) (stage : ViewStage) :
    Progress ViewStage View × Bridge :=
  match _h : bridge.stepView registry token stage with
  | (.running next, bridge) =>
      if next.holdsTables then (.running next, bridge)
      else bridge.runToTables registry token next
  | (.finished result, bridge) => (.finished result, bridge)
termination_by stage.stepsLeft
decreasing_by exact ViewStage.stepsLeft_lt_of_step ‹_›

/-- Run a lookup of a view to its end, with nothing else going on. -/
def runView (registry : Registry) (token : String) (bridge : Bridge) (stage : ViewStage) :
    Except Fault View × Bridge :=
  match _h : bridge.stepView registry token stage with
  | (.running next, bridge) => bridge.runView registry token next
  | (.finished result, bridge) => (result, bridge)
termination_by stage.stepsLeft
decreasing_by exact ViewStage.stepsLeft_lt_of_step ‹_›

end Bridge

end ControlPlane
