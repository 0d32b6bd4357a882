/-
# Lookups that nothing overtakes

A lookup runs in steps because it may be overtaken by a reset. Run to its end on its own, it
is one of two things: what the bridge keeps, or what the registry says now, which the bridge
then keeps. Later proofs use these two readings and not the steps.
-/

import ControlPlane.Protocol.Bridge

namespace ControlPlane.Bridge

open Std (ExtTreeMap)

variable {registry : Registry} {bridge bridge' : Bridge} {token : String}

/-! ## Steps of a run -/

theorem runCatalog_of_running {stage next : CatalogStage}
    (h : bridge.stepCatalog registry stage = (.running next, bridge')) :
    bridge.runCatalog registry stage = bridge'.runCatalog registry next := by
  rw [runCatalog]
  split <;> grind

theorem runCatalog_of_finished {stage : CatalogStage} {result : Except Fault Catalog}
    (h : bridge.stepCatalog registry stage = (.finished result, bridge')) :
    bridge.runCatalog registry stage = (result, bridge') := by
  rw [runCatalog]
  split <;> grind

theorem runView_of_running {stage next : ViewStage}
    (h : bridge.stepView registry token stage = (.running next, bridge')) :
    bridge.runView registry token stage = bridge'.runView registry token next := by
  rw [runView]
  split <;> grind

theorem runView_of_finished {stage : ViewStage} {result : Except Fault View}
    (h : bridge.stepView registry token stage = (.finished result, bridge')) :
    bridge.runView registry token stage = (result, bridge') := by
  rw [runView]
  split <;> grind

/-! ## Whole runs -/

/-- A catalog that is kept answers every lookup. -/
theorem runCatalog_of_catalog {catalog : Catalog} (h : bridge.catalog = some catalog) :
    bridge.runCatalog registry .find = (.ok catalog, bridge) :=
  runCatalog_of_finished (by rw [stepCatalog, h])

/-- A bridge without a catalog loads one and keeps it, unless that fails. -/
theorem runCatalog_of_no_catalog (h : bridge.catalog = none) :
    bridge.runCatalog registry .find =
      match Catalog.load registry with
      | .ok loaded => (.ok loaded, { bridge with catalog := some loaded })
      | .error fault => (.error fault, bridge) := by
  have hfind : bridge.stepCatalog registry .find = (.running .readGeneration, bridge) := by
    rw [stepCatalog, h]
  have hgeneration : bridge.stepCatalog registry .readGeneration =
      (.running (.readVersions bridge.generation), bridge) := rfl
  rw [runCatalog_of_running hfind, runCatalog_of_running hgeneration]
  unfold Catalog.load
  cases hversions : registry.versions with
  | error fault => exact runCatalog_of_finished (by rw [stepCatalog, hversions])
  | ok versions =>
      cases hindex : ReleaseIndex.ofVersions versions with
      | error fault =>
          have hstep : bridge.stepCatalog registry (.readVersions bridge.generation) =
              (.finished (.error fault), bridge) := by
            simp only [stepCatalog, hversions, hindex]
          rw [runCatalog_of_finished hstep]
          simp only [bind, Except.bind, hindex]
      | ok index =>
          have hread : bridge.stepCatalog registry (.readVersions bridge.generation) =
              (.running (.readTables bridge.generation versions index), bridge) := by
            simp only [stepCatalog, hversions, hindex]
          rw [runCatalog_of_running hread]
          simp only [bind, Except.bind, hindex]
          cases htables : registry.tables with
          | error fault => exact runCatalog_of_finished (by rw [stepCatalog, htables])
          | ok tables =>
              have htables' : bridge.stepCatalog registry
                  (.readTables bridge.generation versions index) =
                  (.running (.publish bridge.generation versions index tables), bridge) := by
                rw [stepCatalog, htables]
              rw [runCatalog_of_running htables']
              apply runCatalog_of_finished
              simp only [stepCatalog]
              cases hassemble : Catalog.assemble versions index tables with
              | error fault => rfl
              | ok loaded => simp [keepCatalog, h]

/-- A view that is kept answers every lookup of its version. -/
theorem runView_of_view {view : View} (h : bridge.views[token]? = some view) :
    bridge.runView registry token .find = (.ok view, bridge) :=
  runView_of_finished (by rw [stepView, h])

/-- The lookup of a view goes through the lookup of the catalog as that goes on its own. -/
theorem runView_fetchCatalog (generation : UInt64) (bridge : Bridge) (stage : CatalogStage) :
    bridge.runView registry token (.fetchCatalog generation stage) =
      match bridge.runCatalog registry stage with
      | (.error fault, bridge) => (.error fault, bridge)
      | (.ok catalog, bridge) => bridge.runView registry token (.build generation catalog) := by
  induction bridge, stage using runCatalog.induct registry with
  | case1 bridge stage next bridge' hstep ih =>
      rw [runCatalog_of_running hstep, ← ih]
      exact runView_of_running (by rw [stepView, hstep])
  | case2 bridge stage result bridge' hstep =>
      rw [runCatalog_of_finished hstep]
      cases result with
      | error fault => exact runView_of_finished (by rw [stepView, hstep])
      | ok catalog => exact runView_of_running (by rw [stepView, hstep])

/-- A bridge without a view of a version builds one from the catalog and keeps it, unless
that fails. -/
theorem runView_of_no_view (h : bridge.views[token]? = none) :
    bridge.runView registry token .find =
      match bridge.runCatalog registry .find with
      | (.error fault, bridge) => (.error fault, bridge)
      | (.ok catalog, bridge) =>
          match catalog.view token with
          | .error fault => (.error fault, bridge)
          | .ok view => (.ok view, { bridge with views := bridge.views.insert token view }) := by
  have hfind : bridge.stepView registry token .find = (.running .readGeneration, bridge) := by
    rw [stepView, h]
  have hgeneration : bridge.stepView registry token .readGeneration =
      (.running (.fetchCatalog bridge.generation .find), bridge) := rfl
  rw [runView_of_running hfind, runView_of_running hgeneration, runView_fetchCatalog]
  have hkeeps : (bridge.runCatalog registry .find).2.generation = bridge.generation
      ∧ (bridge.runCatalog registry .find).2.views = bridge.views := by
    cases hcatalog : bridge.catalog with
    | some kept => simp [runCatalog_of_catalog hcatalog]
    | none =>
        rw [runCatalog_of_no_catalog hcatalog]
        cases Catalog.load registry <;> simp
  obtain ⟨hgeneration, hviews⟩ := hkeeps
  rcases hrun : bridge.runCatalog registry .find with ⟨_ | catalog, bridge'⟩
  · rfl
  · rw [hrun] at hgeneration hviews
    simp only at hgeneration hviews ⊢
    cases hview : catalog.view token with
    | error fault => exact runView_of_finished (by rw [stepView, hview])
    | ok view =>
        have hbuild : bridge'.stepView registry token (.build bridge.generation catalog) =
            (.running (.publish bridge.generation view), bridge') := by
          rw [stepView, hview]
        rw [runView_of_running hbuild]
        apply runView_of_finished
        simp [stepView, keepView, hgeneration, hviews, h]

/-! ## Agreement with a catalog -/

/-- Everything that the bridge keeps is what a reading of the registry gives. -/
structure Agrees (reading : Except Fault Catalog) (bridge : Bridge) : Prop where
  catalog : ∀ kept, bridge.catalog = some kept → reading = .ok kept
  views : ∀ (token : String) (view : View), bridge.views[token]? = some view →
    (reading >>= (·.view token)) = .ok view

/-- A bridge that keeps nothing agrees with every reading. -/
theorem agrees_of_empty (hcatalog : bridge.catalog = none) (hviews : bridge.views = ∅)
    (reading : Except Fault Catalog) : Agrees reading bridge where
  catalog _ hkept := by rw [hcatalog] at hkept; cases hkept
  views _ _ hkept := by rw [hviews] at hkept; simp at hkept

variable {reading : Except Fault Catalog}

/-- A lookup of the catalog keeps nothing but what the registry gives. -/
theorem Agrees.runCatalog (h : Agrees reading bridge)
    (hload : ∀ loaded, Catalog.load registry = .ok loaded → reading = .ok loaded) :
    Agrees reading (bridge.runCatalog registry .find).2
      ∧ ∀ catalog, (bridge.runCatalog registry .find).1 = .ok catalog → reading = .ok catalog := by
  cases hcatalog : bridge.catalog with
  | some kept =>
      rw [runCatalog_of_catalog hcatalog]
      refine ⟨h, fun catalog hanswer => ?_⟩
      rw [← Except.ok.inj hanswer]
      exact h.catalog kept hcatalog
  | none =>
      rw [runCatalog_of_no_catalog hcatalog]
      cases hloaded : Catalog.load registry with
      | error fault => exact ⟨h, fun _ hanswer => by cases hanswer⟩
      | ok loaded =>
          refine ⟨⟨fun kept hkept => ?_, h.views⟩, fun catalog hanswer => ?_⟩
          · rw [← Option.some.inj hkept]
            exact hload loaded hloaded
          · rw [← Except.ok.inj hanswer]
            exact hload loaded hloaded

/-- A lookup of a view keeps nothing but what the registry gives. -/
theorem Agrees.runView (h : Agrees reading bridge)
    (hload : ∀ loaded, Catalog.load registry = .ok loaded → reading = .ok loaded)
    (token : String) : Agrees reading (bridge.runView registry token .find).2 := by
  cases hkept : bridge.views[token]? with
  | some view =>
      rw [runView_of_view hkept]
      exact h
  | none =>
      obtain ⟨hagrees, hanswer⟩ := h.runCatalog hload
      rw [runView_of_no_view hkept]
      rcases hrun : bridge.runCatalog registry .find with ⟨fault | catalog, bridge'⟩
      · rw [hrun] at hagrees
        exact hagrees
      · rw [hrun] at hagrees hanswer
        simp only
        cases hview : catalog.view token with
        | error fault => exact hagrees
        | ok view =>
            refine ⟨hagrees.catalog, fun other view' hother => ?_⟩
            rw [getElem?_insert_eq_ite] at hother
            split at hother
            · next heq =>
              rw [hanswer catalog rfl, ← heq, ← Option.some.inj hother]
              exact hview
            · exact hagrees.views other view' hother

/-- A bridge that agrees with the registry gives the catalog of the registry. -/
theorem Agrees.runCatalog_fst (h : Agrees (Catalog.load registry) bridge) :
    (bridge.runCatalog registry .find).1 = Catalog.load registry := by
  cases hcatalog : bridge.catalog with
  | some kept =>
      rw [runCatalog_of_catalog hcatalog]
      exact (h.catalog kept hcatalog).symm
  | none =>
      rw [runCatalog_of_no_catalog hcatalog]
      cases Catalog.load registry <;> rfl

/-- A bridge that agrees with the registry gives the views that the registry gives. -/
theorem Agrees.runView_fst (h : Agrees (Catalog.load registry) bridge) (token : String) :
    (bridge.runView registry token .find).1 = (Catalog.load registry >>= (·.view token)) := by
  cases hkept : bridge.views[token]? with
  | some view =>
      rw [runView_of_view hkept]
      exact (h.views token view hkept).symm
  | none =>
      rw [runView_of_no_view hkept, ← h.runCatalog_fst]
      rcases bridge.runCatalog registry .find with ⟨fault | catalog, bridge'⟩
      · rfl
      · change _ = catalog.view token
        cases hview : catalog.view token <;> simp [hview]

end ControlPlane.Bridge
