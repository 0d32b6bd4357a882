/-
# Where the answers of a shared bridge come from

What is kept and what is answered is traced back to reads of the registry, and each read carries
how often the bridge had been reset when it began. Two facts carry the proof. A lookup reads the
generation before the registry, so that whatever it reads afterwards is at least as new as that
generation. And it publishes only where that generation still runs, so that what it publishes is as
new as the last reset.
-/

import ControlPlane.Proofs.Protocol.SharedBridge

namespace ControlPlane

open Std (ExtTreeMap)

namespace SharedBridge

/-! ## Where answers come from -/

/-- A catalog, or the failure to load one, is what reads of the registry give that all began after
so many resets. -/
inductive ReadSince (w : SharedBridge) (since : Nat) : Except Fault Catalog → Prop
  /-- The tables are not read where the versions could not be used. -/
  | failed {read : RegistryRead (List ProtocolVersion)} {fault : Fault}
      (hread : read ∈ w.versionReads) (hsince : since ≤ read.began)
      (hfails : (read.answer >>= ReleaseIndex.ofVersions) = .error fault) :
      w.ReadSince since (.error fault)
  | loaded {versions : RegistryRead (List ProtocolVersion)}
      {tables : RegistryRead (List TableDescriptor)}
      (hversions : versions ∈ w.versionReads) (hsinceVersions : since ≤ versions.began)
      (htables : tables ∈ w.tableReads) (hsinceTables : since ≤ tables.began) :
      w.ReadSince since (Catalog.load ⟨versions.answer, tables.answer⟩)

/-- Whether a read has been taken up. -/
def Noted (w : SharedBridge) (began : Nat) (registry : Registry) : ReadKind → Prop
  | .versions => ⟨began, registry.versions⟩ ∈ w.versionReads
  | .tables => ⟨began, registry.tables⟩ ∈ w.tableReads

/-- A later world: nothing that was read is forgotten, and a catalog is kept until the next
reset. -/
structure Follows (w w' : SharedBridge) : Prop where
  resets : w.resets ≤ w'.resets
  versionReads : w.versionReads ⊆ w'.versionReads
  tableReads : w.tableReads ⊆ w'.tableReads
  catalog : w'.resets = w.resets → ∀ catalog, w.bridge.catalog = some catalog →
    w'.bridge.catalog = some catalog

/-- What is kept was read since the last reset, and the views are those of the catalog. -/
structure KeepsFresh (w : SharedBridge) : Prop where
  generation : w.bridge.generation = UInt64.ofNat w.resets
  catalog : ∀ catalog, w.bridge.catalog = some catalog → w.ReadSince w.resets (.ok catalog)
  views : ∀ (token : String) (view : View), w.bridge.views[token]? = some view →
    ∃ catalog, w.bridge.catalog = some catalog ∧ catalog.view token = .ok view

/-- A generation that was read as the one after `asOf` resets, no fewer than `since`. -/
structure AsOf (w : SharedBridge) (since : Nat) (generation : UInt64) (asOf : Nat) : Prop where
  since_le : since ≤ asOf
  le_resets : asOf ≤ w.resets
  generation_eq : generation = UInt64.ofNat asOf

end SharedBridge

/-! ## Where a lookup stands -/

/-- A read that is going on began after so many resets. -/
def Reading.BeganSince (since : Nat) : Reading → Prop
  | idle => True
  | begun began | answered began _ => since ≤ began

open SharedBridge

/-- What a lookup of the catalog has in hand was read under its generation or later. -/
def CatalogStage.Stands (w : SharedBridge) (since : Nat) (reading : Reading) :
    CatalogStage → Prop
  | find | readGeneration => True
  | readVersions generation => ∃ asOf, w.AsOf since generation asOf ∧ reading.BeganSince asOf
  | readTables generation versions index =>
      ∃ asOf, w.AsOf since generation asOf ∧ reading.BeganSince asOf
        ∧ ReleaseIndex.ofVersions versions = .ok index
        ∧ ∃ began, asOf ≤ began ∧ ⟨began, .ok versions⟩ ∈ w.versionReads
  | publish generation versions index tables =>
      ∃ asOf, w.AsOf since generation asOf
        ∧ ReleaseIndex.ofVersions versions = .ok index
        ∧ (∃ began, asOf ≤ began ∧ ⟨began, .ok versions⟩ ∈ w.versionReads)
        ∧ ∃ began, asOf ≤ began ∧ ⟨began, .ok tables⟩ ∈ w.tableReads

/-- A catalog that was found is the one that is kept, unless there was a reset since. -/
def SharedBridge.Keeps (w : SharedBridge) (asOf : Nat) (catalog : Catalog) : Prop :=
  asOf = w.resets → w.bridge.catalog = some catalog

namespace Errand

/-- What a lookup has in hand, or has answered, was read since it started. -/
def Stands (w : SharedBridge) (since : Nat) (reading : Reading) : Errand → Prop
  | .catalog (.running stage) => stage.Stands w since reading
  | .catalog (.finished result) => w.ReadSince since result
  | .view _ (.running .find) | .view _ (.running .readGeneration) => True
  | .view _ (.running (.fetchCatalog generation stage)) =>
      ∃ asOf, w.AsOf since generation asOf ∧ stage.Stands w asOf reading
  | .view _ (.running (.build generation loaded)) =>
      ∃ asOf, w.AsOf since generation asOf ∧ w.ReadSince since (.ok loaded)
        ∧ w.Keeps asOf loaded
  | .view token (.running (.publish generation built)) =>
      ∃ asOf, w.AsOf since generation asOf ∧ ∃ loaded, w.ReadSince since (.ok loaded)
        ∧ w.Keeps asOf loaded ∧ loaded.view token = .ok built
  | .view token (.finished result) =>
      ∃ reading, w.ReadSince since reading ∧ result = (reading >>= (·.view token))

end Errand

namespace SharedBridge

variable {w w' w'' : SharedBridge} {since asOf : Nat} {generation : UInt64}
  {reading : Except Fault Catalog}

/-! ## Later worlds -/

theorem Follows.refl (w : SharedBridge) : w.Follows w :=
  ⟨Nat.le_refl _, List.Subset.refl _, List.Subset.refl _, fun _ _ => id⟩

theorem Follows.trans (h : w.Follows w') (h' : w'.Follows w'') : w.Follows w'' where
  resets := Nat.le_trans h.resets h'.resets
  versionReads := List.Subset.trans h.versionReads h'.versionReads
  tableReads := List.Subset.trans h.tableReads h'.tableReads
  catalog := fun hsame catalog hcatalog => by
    have hsame' : w'.resets = w.resets := Nat.le_antisymm (hsame ▸ h'.resets) h.resets
    exact h'.catalog (hsame.trans hsame'.symm) catalog (h.catalog hsame' catalog hcatalog)

theorem ReadSince.mono (h : w.ReadSince since reading) (hfollows : w.Follows w')
    {earlier : Nat} (hle : earlier ≤ since) : w'.ReadSince earlier reading := by
  cases h with
  | failed hread hsince hfails =>
      exact .failed (hfollows.versionReads hread) (Nat.le_trans hle hsince) hfails
  | loaded hversions hsinceVersions htables hsinceTables =>
      exact .loaded (hfollows.versionReads hversions) (Nat.le_trans hle hsinceVersions)
        (hfollows.tableReads htables) (Nat.le_trans hle hsinceTables)

theorem AsOf.mono (h : w.AsOf since generation asOf) (hfollows : w.Follows w') :
    w'.AsOf since generation asOf :=
  ⟨h.since_le, Nat.le_trans h.le_resets hfollows.resets, h.generation_eq⟩

theorem Keeps.mono {catalog : Catalog} (h : w.Keeps asOf catalog) (hle : asOf ≤ w.resets)
    (hfollows : w.Follows w') : w'.Keeps asOf catalog := by
  intro hnow
  have hsame : w'.resets = w.resets := Nat.le_antisymm (hnow ▸ hle) hfollows.resets
  exact hfollows.catalog hsame catalog (h (hnow.trans hsame))

end SharedBridge

variable {w w' : SharedBridge} {since : Nat}

theorem CatalogStage.Stands.mono {stage : CatalogStage} {read : Reading}
    (h : stage.Stands w since read) (hfollows : w.Follows w') : stage.Stands w' since read := by
  cases stage with
  | find => trivial
  | readGeneration => trivial
  | readVersions generation =>
      obtain ⟨asOf, hasOf, hread⟩ := h
      exact ⟨asOf, hasOf.mono hfollows, hread⟩
  | readTables generation versions index =>
      obtain ⟨asOf, hasOf, hread, hindex, began, hbegan, hversions⟩ := h
      exact ⟨asOf, hasOf.mono hfollows, hread, hindex, began, hbegan,
        hfollows.versionReads hversions⟩
  | publish generation versions index tables =>
      obtain ⟨asOf, hasOf, hindex, ⟨began, hbegan, hversions⟩, began', hbegan', htables⟩ := h
      exact ⟨asOf, hasOf.mono hfollows, hindex, ⟨began, hbegan, hfollows.versionReads hversions⟩,
        began', hbegan', hfollows.tableReads htables⟩

/-- A lookup of the catalog may go on with a read that is no older than the one it was at. -/
theorem CatalogStage.Stands.of_reading {stage : CatalogStage} {read read' : Reading}
    (h : stage.Stands w since read)
    (hread : ∀ asOf ≤ w.resets, read.BeganSince asOf → read'.BeganSince asOf) :
    stage.Stands w since read' := by
  cases stage with
  | find => trivial
  | readGeneration => trivial
  | readVersions generation =>
      obtain ⟨asOf, hasOf, hbegan⟩ := h
      exact ⟨asOf, hasOf, hread asOf hasOf.le_resets hbegan⟩
  | readTables generation versions index =>
      obtain ⟨asOf, hasOf, hbegan, hversions⟩ := h
      exact ⟨asOf, hasOf, hread asOf hasOf.le_resets hbegan, hversions⟩
  | publish generation versions index tables => exact h

theorem Errand.Stands.of_reading {errand : Errand} {read read' : Reading}
    (h : errand.Stands w since read)
    (hread : ∀ asOf ≤ w.resets, read.BeganSince asOf → read'.BeganSince asOf) :
    errand.Stands w since read' := by
  cases errand with
  | catalog progress =>
      cases progress with
      | running stage => exact CatalogStage.Stands.of_reading h hread
      | finished result => exact h
  | view token progress =>
      cases progress with
      | finished result => exact h
      | running stage =>
          cases stage with
          | fetchCatalog generation stage =>
              obtain ⟨asOf, hasOf, hstands⟩ := h
              exact ⟨asOf, hasOf, hstands.of_reading hread⟩
          | _ => exact h

theorem Errand.Stands.mono {errand : Errand} {read : Reading}
    (h : errand.Stands w since read) (hfollows : w.Follows w') : errand.Stands w' since read := by
  cases errand with
  | catalog progress =>
      cases progress with
      | running stage => exact CatalogStage.Stands.mono h hfollows
      | finished result => exact ReadSince.mono h hfollows (Nat.le_refl _)
  | view token progress =>
      cases progress with
      | finished result =>
          obtain ⟨reading, hreading, hresult⟩ := h
          exact ⟨reading, hreading.mono hfollows (Nat.le_refl _), hresult⟩
      | running stage =>
          cases stage with
          | find => trivial
          | readGeneration => trivial
          | fetchCatalog generation stage =>
              obtain ⟨asOf, hasOf, hstands⟩ := h
              exact ⟨asOf, hasOf.mono hfollows, hstands.mono hfollows⟩
          | build generation catalog =>
              obtain ⟨asOf, hasOf, hread, hkeeps⟩ := h
              exact ⟨asOf, hasOf.mono hfollows, hread.mono hfollows (Nat.le_refl _),
                hkeeps.mono hasOf.le_resets hfollows⟩
          | publish generation view =>
              obtain ⟨asOf, hasOf, catalog, hread, hkeeps, hview⟩ := h
              exact ⟨asOf, hasOf.mono hfollows, catalog, hread.mono hfollows (Nat.le_refl _),
                hkeeps.mono hasOf.le_resets hfollows, hview⟩

namespace SharedBridge

variable {asOf : Nat} {generation : UInt64}

/-! ## Steps of the bridge -/

/-- A generation that still runs is the one after the last reset. -/
theorem AsOf.eq_resets (h : w.AsOf since w.bridge.generation asOf) (hkeeps : w.KeepsFresh)
    (hspan : w.resets < since + UInt64.size) : asOf = w.resets := by
  have hgeneration := h.generation_eq
  rw [hkeeps.generation] at hgeneration
  have hword := congrArg UInt64.toNat hgeneration
  have hsince := h.since_le
  have hle := h.le_resets
  simp only [UInt64.toNat_ofNat'] at hword
  rw [UInt64.size] at hspan
  omega

/-- Once a catalog is to be published, it is what the reads of the registry give. -/
theorem load_eq_assemble {versions : List ProtocolVersion} {index : ReleaseIndex}
    (hindex : ReleaseIndex.ofVersions versions = .ok index)
    (tables : Except Fault (List TableDescriptor)) :
    Catalog.load ⟨.ok versions, tables⟩ = tables >>= Catalog.assemble versions index := by
  simp only [Catalog.load, bind, Except.bind, hindex]

/-- What a step of a lookup of the catalog leads to. -/
def Reaches (w : SharedBridge) (since : Nat) : Progress CatalogStage Catalog → Prop
  | .running next => next.Stands w since .idle
  | .finished result =>
      w.ReadSince since result ∧ ∀ catalog, result = .ok catalog → w.Keeps since catalog

/-- A step of a lookup of the catalog changes only the bridge, which stays fresh. -/
def Leads (w : SharedBridge) (since : Nat) (done : Progress CatalogStage Catalog × Bridge) : Prop :=
  let w' := { w with bridge := done.2 }
  w.Follows w' ∧ w'.KeepsFresh ∧ w'.Reaches since done.1

/-- A catalog that was read under a generation is published without harm, whether or not that
generation still runs. -/
theorem reaches_keepCatalog (hfresh : w.KeepsFresh) (hspan : w.resets < since + UInt64.size)
    (hasOf : w.AsOf since generation asOf) {loaded : Catalog}
    (hloaded : w.ReadSince asOf (.ok loaded)) :
    let (catalog, bridge) := w.bridge.keepCatalog generation loaded
    let w' := { w with bridge }
    w.Follows w' ∧ w'.KeepsFresh ∧ w'.ReadSince since (.ok catalog) ∧ w'.Keeps since catalog := by
  rw [Bridge.keepCatalog]
  by_cases hgeneration : w.bridge.generation ≠ generation
  · rw [if_pos hgeneration]
    refine ⟨.refl w, hfresh, hloaded.mono (.refl w) hasOf.since_le, fun hnow => ?_⟩
    -- had there been no reset, the generation would still run
    have hsame : asOf = w.resets :=
      Nat.le_antisymm hasOf.le_resets (Nat.le_trans (Nat.le_of_eq hnow.symm) hasOf.since_le)
    rw [hfresh.generation, hasOf.generation_eq, hsame] at hgeneration
    exact absurd rfl hgeneration
  · rw [if_neg hgeneration]
    obtain rfl := not_not.mp hgeneration
    obtain rfl := hasOf.eq_resets hfresh hspan
    cases hkept : w.bridge.catalog with
    | some kept =>
        exact ⟨.refl w, hfresh, (hfresh.catalog kept hkept).mono (.refl w) hasOf.since_le,
          fun _ => hkept⟩
    | none =>
        have hfollows : w.Follows { w with bridge := { w.bridge with catalog := some loaded } } :=
          ⟨Nat.le_refl _, List.Subset.refl _, List.Subset.refl _, by simp [hkept]⟩
        have hread := hloaded.mono hfollows (Nat.le_refl _)
        refine ⟨hfollows, ⟨hfresh.generation, ?_, ?_⟩, hread.mono (.refl _) hasOf.since_le,
          fun _ => rfl⟩
        · rintro catalog ⟨⟩
          exact hread
        · -- no view is kept without a catalog
          intro token view hview
          obtain ⟨catalog, hcatalog, -⟩ := hfresh.views token view hview
          rw [hkept] at hcatalog
          cases hcatalog

section

variable {registry : Registry} {began : Nat} {versions : List ProtocolVersion}
  {index : ReleaseIndex}

theorem leads_readVersions (hfresh : w.KeepsFresh) (hasOf : w.AsOf since generation asOf)
    (hbegan : asOf ≤ began) (hnoted : w.Noted began registry .versions) :
    w.Leads since (w.bridge.stepCatalog registry (.readVersions generation)) := by
  have hfails {fault : Fault}
      (hfails : (registry.versions >>= ReleaseIndex.ofVersions) = .error fault) :
      w.Reaches since (.finished (.error fault)) :=
    ⟨.failed hnoted (Nat.le_trans hasOf.since_le hbegan) hfails, by rintro _ ⟨⟩⟩
  rw [Bridge.stepCatalog]
  cases hversions : registry.versions with
  | error fault => exact ⟨.refl w, hfresh, hfails (by rw [hversions]; rfl)⟩
  | ok versions =>
      simp only
      cases hindex : ReleaseIndex.ofVersions versions with
      | error fault => exact ⟨.refl w, hfresh, hfails (by rw [hversions]; exact hindex)⟩
      | ok index =>
          refine ⟨.refl w, hfresh, asOf, hasOf, trivial, hindex, began, hbegan, ?_⟩
          rw [← hversions]
          exact hnoted

theorem leads_readTables (hfresh : w.KeepsFresh) (hasOf : w.AsOf since generation asOf)
    (hbegan : asOf ≤ began) (hnoted : w.Noted began registry .tables)
    (hindex : ReleaseIndex.ofVersions versions = .ok index)
    (hversions : ∃ earlier, asOf ≤ earlier ∧ ⟨earlier, .ok versions⟩ ∈ w.versionReads) :
    w.Leads since
      (w.bridge.stepCatalog registry (.readTables generation versions index)) := by
  rw [Bridge.stepCatalog]
  cases htables : registry.tables with
  | error fault =>
      obtain ⟨earlier, hearlier, hversions⟩ := hversions
      refine ⟨.refl w, hfresh, ?_, by rintro _ ⟨⟩⟩
      have hload := load_eq_assemble hindex registry.tables
      rw [htables] at hload
      change w.ReadSince since (Except.error fault >>= Catalog.assemble versions index)
      rw [← hload, ← htables]
      exact .loaded hversions (Nat.le_trans hasOf.since_le hearlier) hnoted
        (Nat.le_trans hasOf.since_le hbegan)
  | ok tables =>
      refine ⟨.refl w, hfresh, asOf, hasOf, hindex, hversions, began, hbegan, ?_⟩
      rw [← htables]
      exact hnoted

theorem leads_publish (registry : Registry) (hfresh : w.KeepsFresh)
    (hspan : w.resets < since + UInt64.size) (hasOf : w.AsOf since generation asOf)
    (hindex : ReleaseIndex.ofVersions versions = .ok index)
    {earlier : Nat} (hearlier : asOf ≤ earlier)
    (hversions : ⟨earlier, .ok versions⟩ ∈ w.versionReads) (hbegan : asOf ≤ began)
    {tables : List TableDescriptor} (htables : ⟨began, .ok tables⟩ ∈ w.tableReads) :
    w.Leads since
      (w.bridge.stepCatalog registry (.publish generation versions index tables)) := by
  have hread : w.ReadSince asOf (Catalog.assemble versions index tables) := by
    have hload := load_eq_assemble hindex (.ok tables)
    change w.ReadSince asOf (Except.ok tables >>= Catalog.assemble versions index)
    rw [← hload]
    exact .loaded hversions hearlier htables hbegan
  rw [Bridge.stepCatalog]
  cases hassemble : Catalog.assemble versions index tables with
  | error fault =>
      rw [hassemble] at hread
      exact ⟨.refl w, hfresh, hread.mono (.refl w) hasOf.since_le, by rintro _ ⟨⟩⟩
  | ok loaded =>
      rw [hassemble] at hread
      have hkept := reaches_keepCatalog hfresh hspan hasOf hread
      rcases w.bridge.keepCatalog generation loaded with ⟨catalog, bridge⟩
      obtain ⟨hfollows, hfresh', hread', hkeeps⟩ := hkept
      refine ⟨hfollows, hfresh', hread', ?_⟩
      rintro catalog ⟨⟩
      exact hkeeps

end

theorem leads_stepCatalog (hfresh : w.KeepsFresh) (hsince : since ≤ w.resets)
    (hspan : w.resets < since + UInt64.size) {stage : CatalogStage} {read : Reading}
    (hstands : stage.Stands w since read) {registry : Registry}
    (hread : ∀ kind, stage.readKind? = some kind →
      ∃ began, read = .answered began registry ∧ w.Noted began registry kind) :
    w.Leads since (w.bridge.stepCatalog registry stage) := by
  cases stage with
  | find =>
      rw [Bridge.stepCatalog]
      cases hkept : w.bridge.catalog with
      | none => exact ⟨.refl w, hfresh, trivial⟩
      | some kept =>
          refine ⟨.refl w, hfresh, (hfresh.catalog kept hkept).mono (.refl w) hsince, ?_⟩
          rintro catalog ⟨⟩ -
          exact hkept
  | readGeneration =>
      exact ⟨.refl w, hfresh, w.resets, ⟨hsince, Nat.le_refl _, hfresh.generation⟩, trivial⟩
  | readVersions generation =>
      obtain ⟨began, rfl, hnoted⟩ := hread .versions rfl
      obtain ⟨asOf, hasOf, hbegan⟩ := hstands
      exact leads_readVersions hfresh hasOf hbegan hnoted
  | readTables generation versions index =>
      obtain ⟨began, rfl, hnoted⟩ := hread .tables rfl
      obtain ⟨asOf, hasOf, hbegan, hindex, hversions⟩ := hstands
      exact leads_readTables hfresh hasOf hbegan hnoted hindex hversions
  | publish generation versions index tables =>
      obtain ⟨asOf, hasOf, hindex, ⟨earlier, hearlier, hversions⟩, began, hbegan, htables⟩ :=
        hstands
      exact leads_publish registry hfresh hspan hasOf hindex hearlier hversions hbegan htables

/-- A view of a catalog that was read is published without harm, whether or not the generation
still runs. -/
theorem reaches_keepView (hfresh : w.KeepsFresh) (hspan : w.resets < since + UInt64.size)
    (hasOf : w.AsOf since generation asOf) {catalog : Catalog} {token : String} {built : View}
    (hread : w.ReadSince since (.ok catalog)) (hkeeps : w.Keeps asOf catalog)
    (hbuilt : catalog.view token = .ok built) :
    let (view, bridge) := w.bridge.keepView generation token built
    let w' := { w with bridge }
    w.Follows w' ∧ w'.KeepsFresh
      ∧ (Errand.view token (.finished (.ok view))).Stands w' since .idle := by
  rw [Bridge.keepView]
  by_cases hgeneration : w.bridge.generation ≠ generation
  · rw [if_pos hgeneration]
    exact ⟨.refl w, hfresh, _, hread, hbuilt.symm⟩
  · rw [if_neg hgeneration]
    obtain rfl := not_not.mp hgeneration
    obtain rfl := hasOf.eq_resets hfresh hspan
    have hcatalog := hkeeps rfl
    cases hkept : w.bridge.views[token]? with
    | some kept =>
        obtain ⟨catalog', hcatalog', hview⟩ := hfresh.views token kept hkept
        rw [hcatalog] at hcatalog'
        obtain rfl := Option.some.inj hcatalog'
        exact ⟨.refl w, hfresh, _, hread, hview.symm⟩
    | none =>
        have hfollows : w.Follows
            { w with bridge := { w.bridge with views := w.bridge.views.insert token built } } :=
          ⟨Nat.le_refl _, List.Subset.refl _, List.Subset.refl _, fun _ _ => id⟩
        refine ⟨hfollows, ⟨hfresh.generation, ?_, ?_⟩, _, hread.mono hfollows (Nat.le_refl _),
          hbuilt.symm⟩
        · exact fun catalog hcatalog =>
            (hfresh.catalog catalog hcatalog).mono hfollows (Nat.le_refl _)
        · intro other view hother
          rw [getElem?_insert_eq_ite] at hother
          split at hother
          · next heq =>
            subst heq
            obtain rfl := Option.some.inj hother
            exact ⟨catalog, hcatalog, hbuilt⟩
          · exact hfresh.views other view hother

/-- What a step of a lookup of a view leads to. -/
theorem stands_stepView (hfresh : w.KeepsFresh) (hsince : since ≤ w.resets)
    (hspan : w.resets < since + UInt64.size) {token : String} {stage : ViewStage} {read : Reading}
    (hstands : (Errand.view token (.running stage)).Stands w since read) {registry : Registry}
    (hread : ∀ kind, (Errand.view token (.running stage)).readKind? = some kind →
      ∃ began, read = .answered began registry ∧ w.Noted began registry kind) :
    let (progress, bridge) := w.bridge.stepView registry token stage
    let w' := { w with bridge }
    w.Follows w' ∧ w'.KeepsFresh ∧ (Errand.view token progress).Stands w' since .idle := by
  cases stage with
  | find =>
      rw [Bridge.stepView]
      cases hkept : w.bridge.views[token]? with
      | none => exact ⟨.refl w, hfresh, trivial⟩
      | some kept =>
          obtain ⟨catalog, hcatalog, hview⟩ := hfresh.views token kept hkept
          exact ⟨.refl w, hfresh, _,
            (hfresh.catalog catalog hcatalog).mono (.refl w) hsince, hview.symm⟩
  | readGeneration =>
      exact ⟨.refl w, hfresh, w.resets, ⟨hsince, Nat.le_refl _, hfresh.generation⟩, trivial⟩
  | fetchCatalog generation stage =>
      obtain ⟨asOf, hasOf, hstage⟩ := hstands
      have hspan' : w.resets < asOf + UInt64.size :=
        Nat.lt_of_lt_of_le hspan (Nat.add_le_add_right hasOf.since_le _)
      have hleads := leads_stepCatalog hfresh hasOf.le_resets hspan' hstage hread
      rw [Bridge.stepView]
      rcases hstep : w.bridge.stepCatalog registry stage with ⟨next | result, bridge⟩
      · rw [hstep] at hleads
        obtain ⟨hfollows, hfresh', hnext⟩ := hleads
        exact ⟨hfollows, hfresh', asOf, hasOf.mono hfollows, hnext⟩
      · rw [hstep] at hleads
        obtain ⟨hfollows, hfresh', hread', hkeeps⟩ := hleads
        have hread'' := hread'.mono (.refl _) hasOf.since_le
        cases result with
        | error fault => exact ⟨hfollows, hfresh', _, hread'', rfl⟩
        | ok catalog =>
            exact ⟨hfollows, hfresh', asOf, hasOf.mono hfollows, hread'', hkeeps catalog rfl⟩
  | build generation catalog =>
      obtain ⟨asOf, hasOf, hcatalog, hkeeps⟩ := hstands
      rw [Bridge.stepView]
      cases hview : catalog.view token with
      | error fault => exact ⟨.refl w, hfresh, _, hcatalog, hview.symm⟩
      | ok view => exact ⟨.refl w, hfresh, asOf, hasOf, catalog, hcatalog, hkeeps, hview⟩
  | publish generation built =>
      obtain ⟨asOf, hasOf, catalog, hcatalog, hkeeps, hbuilt⟩ := hstands
      exact reaches_keepView hfresh hspan hasOf hcatalog hkeeps hbuilt

theorem stands_step (hfresh : w.KeepsFresh) (hsince : since ≤ w.resets)
    (hspan : w.resets < since + UInt64.size) {errand : Errand} {read : Reading}
    (hstands : errand.Stands w since read) {registry : Registry}
    (hread : ∀ kind, errand.readKind? = some kind →
      ∃ began, read = .answered began registry ∧ w.Noted began registry kind) :
    let (errand, bridge) := errand.step registry w.bridge
    let w' := { w with bridge }
    w.Follows w' ∧ w'.KeepsFresh ∧ errand.Stands w' since .idle := by
  cases errand with
  | catalog progress =>
      cases progress with
      | finished result => exact ⟨.refl w, hfresh, hstands⟩
      | running stage =>
          have hleads := leads_stepCatalog hfresh hsince hspan hstands hread
          rw [Errand.step]
          rcases hstep : w.bridge.stepCatalog registry stage with ⟨next | result, bridge⟩
          · rw [hstep] at hleads
            exact hleads
          · rw [hstep] at hleads
            obtain ⟨hfollows, hfresh', hread', -⟩ := hleads
            exact ⟨hfollows, hfresh', hread'⟩
  | view token progress =>
      cases progress with
      | finished result => exact ⟨.refl w, hfresh, hstands⟩
      | running stage => exact stands_stepView hfresh hsince hspan hstands hread

end SharedBridge

end ControlPlane
