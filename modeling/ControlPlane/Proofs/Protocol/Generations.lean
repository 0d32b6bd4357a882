/-
# One reading of the registry between two resets

The registry changes while a bridge is in use, becomes inconsistent or cannot be reached, and
the bridge is told of none of this. Between two resets it answers nevertheless from one reading:
the first one that a lookup found consistent. Until there is one, every lookup reads anew and
nothing is kept.

`FirstReading` says of a list of steps alone which reading that is. The bridge has no part in
it, so that the main statement compares the bridge with something it cannot influence.
-/

import ControlPlane.Proofs.Protocol.Lookup
import ControlPlane.Proofs.Protocol.Views
import Mathlib.Data.List.Induction

namespace ControlPlane

open Std (ExtTreeMap)

/-! ## Lookups -/

/-- What can be looked up through a bridge. -/
inductive BridgeLookup
  | view (version : String)
  | tableToCanonical (version : String) (ordinal : Int32)
  | tableToOrdinal (version : String) (table : Int32)
  | columnToCanonical (version : String) (table ordinal : Int32)
  | columnToOrdinal (version : String) (table column : Int32)
  | requireTable (version : String) (ordinal : Int32)
  | requireColumn (version : String) (table ordinal : Int32)
  | tableName (table : Int32)

/-- What a lookup finds. -/
inductive BridgeFinding
  | view (view : View)
  | number (value : Int32)
  | name (name : Option String)
deriving DecidableEq

/-- The same question with its answer put differently. -/
def VersionQuery.map {α β : Type} (f : α → β) (query : VersionQuery α) : VersionQuery β where
  version := query.version
  answer view := (query.answer view).map f

/-- The answer to a question from one reading of the registry, with nothing kept. -/
def VersionQuery.on {α : Type} (query : VersionQuery α) (reading : Except Fault Catalog) :
    Except Fault α :=
  query.answer (reading >>= (·.view query.version))

namespace BridgeLookup

/-- All lookups but one are questions about a version; that one is about a table. -/
def query : BridgeLookup → VersionQuery BridgeFinding ⊕ Int32
  | view version => .inl ((VersionQuery.whole version).map .view)
  | tableToCanonical version ordinal =>
      .inl ((VersionQuery.tableToCanonical version ordinal).map .number)
  | tableToOrdinal version table => .inl ((VersionQuery.tableToOrdinal version table).map .number)
  | columnToCanonical version table ordinal =>
      .inl ((VersionQuery.columnToCanonical version table ordinal).map .number)
  | columnToOrdinal version table column =>
      .inl ((VersionQuery.columnToOrdinal version table column).map .number)
  | requireTable version ordinal =>
      .inl ((VersionQuery.requireTable version ordinal).map .number)
  | requireColumn version table ordinal =>
      .inl ((VersionQuery.requireColumn version table ordinal).map .number)
  | tableName table => .inr table

/-- What a lookup finds in one reading of the registry, with nothing kept. -/
def on (reading : Except Fault Catalog) (lookup : BridgeLookup) : Except Fault BridgeFinding :=
  match lookup.query with
  | .inl query => query.on reading
  | .inr table => reading.map fun catalog => .name (catalog.tableName? table)

end BridgeLookup

namespace Bridge

variable {registry : Registry} {bridge : Bridge} {catalog : Catalog}

/-- What a lookup finds through a bridge. -/
def lookUp (registry : Registry) (bridge : Bridge) (lookup : BridgeLookup) :
    Except Fault BridgeFinding × Bridge :=
  match lookup.query with
  | .inl query => bridge.ask registry query
  | .inr table => (bridge.tableName registry table).map (·.map .name) id

/-- A bridge gives the catalog of one reading, and the views of that catalog. -/
structure Gives (registry : Registry) (bridge : Bridge) (reading : Except Fault Catalog) :
    Prop where
  catalog : (bridge.runCatalog registry .find).1 = reading
  view : ∀ token, (bridge.runView registry token .find).1 = (reading >>= (·.view token))

theorem Gives.ask_fst {reading : Except Fault Catalog} (h : bridge.Gives registry reading)
    {α : Type} (query : VersionQuery α) : (bridge.ask registry query).1 = query.on reading := by
  rw [VersionQuery.on, ← h.view]
  rfl

theorem Gives.lookUp_fst {reading : Except Fault Catalog} (h : bridge.Gives registry reading)
    (lookup : BridgeLookup) : (bridge.lookUp registry lookup).1 = lookup.on reading := by
  rw [lookUp, BridgeLookup.on]
  cases lookup.query with
  | inl query => exact h.ask_fst query
  | inr table =>
      rw [← h.catalog]
      simp only [tableName, Prod.map_fst]
      rcases bridge.runCatalog registry .find with ⟨fault | catalog, bridge'⟩ <;> rfl

/-- A lookup leaves the bridge as a lookup of a view or of the catalog leaves it. -/
theorem lookUp_snd {motive : Bridge → Prop}
    (hview : ∀ token, motive (bridge.runView registry token .find).2)
    (hcatalog : motive (bridge.runCatalog registry .find).2) (lookup : BridgeLookup) :
    motive (bridge.lookUp registry lookup).2 := by
  rw [lookUp]
  cases lookup.query with
  | inl query => exact hview query.version
  | inr table =>
      simp only [tableName, Prod.map_snd, id]
      split
      · next hrun => rwa [hrun] at hcatalog
      · next hrun => rwa [hrun] at hcatalog

theorem Agrees.gives (h : bridge.Agrees (Catalog.load registry)) :
    bridge.Gives registry (Catalog.load registry) where
  catalog := h.runCatalog_fst
  view := h.runView_fst

theorem Agrees.lookUp_snd {reading : Except Fault Catalog} (h : bridge.Agrees reading)
    (hload : ∀ loaded, Catalog.load registry = .ok loaded → reading = .ok loaded)
    (lookup : BridgeLookup) : (bridge.lookUp registry lookup).2.Agrees reading :=
  Bridge.lookUp_snd (motive := (·.Agrees reading)) (h.runView hload) (h.runCatalog hload).1 lookup

/-! ## Bridges that keep nothing -/

/-- Nothing is kept. -/
structure IsEmpty (bridge : Bridge) : Prop where
  catalog_eq : bridge.catalog = none
  views_eq : bridge.views = ∅

theorem isEmpty_new : ({} : Bridge).IsEmpty := ⟨rfl, rfl⟩

theorem isEmpty_reset : bridge.reset.2.IsEmpty := ⟨rfl, rfl⟩

/-- What is not kept cannot be out of date. -/
theorem IsEmpty.agrees (h : bridge.IsEmpty) (reading : Except Fault Catalog) :
    bridge.Agrees reading :=
  agrees_of_empty h.catalog_eq h.views_eq reading

/-- A lookup that cannot read the registry keeps nothing. -/
theorem IsEmpty.lookUp_snd (h : bridge.IsEmpty) {fault : Fault}
    (hload : Catalog.load registry = .error fault) (lookup : BridgeLookup) :
    (bridge.lookUp registry lookup).2 = bridge := by
  have hcatalog : bridge.runCatalog registry .find = (.error fault, bridge) := by
    rw [runCatalog_of_no_catalog h.catalog_eq, hload]
  refine Bridge.lookUp_snd (motive := (· = bridge)) (fun token => ?_) ?_ lookup
  · have hview : bridge.views[token]? = none := by rw [h.views_eq]; exact ExtTreeMap.getElem?_empty
    rw [runView_of_no_view hview, hcatalog]
  · rw [hcatalog]

/-! ## Bridges that keep a catalog -/

/-- A catalog is kept, and no view but its own. -/
structure Holds (bridge : Bridge) (catalog : Catalog) : Prop where
  catalog_eq : bridge.catalog = some catalog
  view_eq : ∀ (token : String) (view : View), bridge.views[token]? = some view →
    catalog.view token = .ok view

/-- Reading the catalog changes nothing once there is one, whatever the registry says. -/
theorem Holds.runCatalog (h : bridge.Holds catalog) (registry : Registry) :
    bridge.runCatalog registry .find = (.ok catalog, bridge) :=
  runCatalog_of_catalog h.catalog_eq

theorem Holds.gives (h : bridge.Holds catalog) (registry : Registry) :
    bridge.Gives registry (.ok catalog) where
  catalog := by rw [h.runCatalog]
  view token := by
    cases hkept : bridge.views[token]? with
    | some view =>
        rw [runView_of_view hkept]
        exact (h.view_eq token view hkept).symm
    | none =>
        rw [runView_of_no_view hkept, h.runCatalog]
        change _ = catalog.view token
        cases hview : catalog.view token <;> simp only [hview]

/-- One more view of the catalog may be kept. -/
theorem Holds.insert (h : bridge.Holds catalog) {token : String} {view : View}
    (hview : catalog.view token = .ok view) :
    Holds { bridge with views := bridge.views.insert token view } catalog where
  catalog_eq := h.catalog_eq
  view_eq other view' hkept := by
    rw [getElem?_insert_eq_ite] at hkept
    split at hkept
    · next heq =>
      rw [← heq, ← Option.some.inj hkept]
      exact hview
    · exact h.view_eq other view' hkept

theorem Holds.lookUp_snd (h : bridge.Holds catalog) (registry : Registry)
    (lookup : BridgeLookup) : (bridge.lookUp registry lookup).2.Holds catalog := by
  refine Bridge.lookUp_snd (motive := (·.Holds catalog)) (fun token => ?_) ?_ lookup
  · cases hkept : bridge.views[token]? with
    | some view => rwa [runView_of_view hkept]
    | none =>
        rw [runView_of_no_view hkept, h.runCatalog]
        simp only
        cases hview : catalog.view token with
        | error fault => exact h
        | ok view => exact h.insert hview
  · rwa [h.runCatalog]

/-- The first lookup that can read the registry keeps what it read. -/
theorem IsEmpty.holds_lookUp (h : bridge.IsEmpty) (hload : Catalog.load registry = .ok catalog)
    (lookup : BridgeLookup) : (bridge.lookUp registry lookup).2.Holds catalog := by
  have hcatalog : bridge.runCatalog registry .find =
      (.ok catalog, { bridge with catalog := some catalog }) := by
    rw [runCatalog_of_no_catalog h.catalog_eq, hload]
  have hholds : Holds { bridge with catalog := some catalog } catalog := by
    refine ⟨rfl, fun token view hkept => ?_⟩
    simp [h.views_eq] at hkept
  refine Bridge.lookUp_snd (motive := (·.Holds catalog)) (fun token => ?_) ?_ lookup
  · have hview : bridge.views[token]? = none := by rw [h.views_eq]; exact ExtTreeMap.getElem?_empty
    rw [runView_of_no_view hview, hcatalog]
    simp only
    cases hview : catalog.view token with
    | error fault => exact hholds
    | ok view => exact hholds.insert hview
  · rw [hcatalog]
    exact hholds

end Bridge

/-! ## Runs -/

/-- A bridge and what its registry says at the time. -/
structure BridgeWorld where
  registry : Registry
  bridge : Bridge

/-- Something that happens to a bridge or to its registry. -/
inductive BridgeStep
  /-- From now on the registry says something else, or cannot be reached. -/
  | registry (registry : Registry)
  | reset
  | invalidate (cls : ResourceClass)
  | look (lookup : BridgeLookup)

/-- Whether a step makes the bridge drop what it keeps. -/
def BridgeStep.Resets : BridgeStep → Prop
  | .reset => True
  | .invalidate cls => cls = .protocolMetadata
  | .registry _ | .look _ => False

namespace BridgeWorld

/-- A new bridge. -/
def new (registry : Registry) : BridgeWorld := ⟨registry, {}⟩

/-- What a lookup finds. -/
def find (w : BridgeWorld) (lookup : BridgeLookup) : Except Fault BridgeFinding :=
  (w.bridge.lookUp w.registry lookup).1

def step (w : BridgeWorld) : BridgeStep → BridgeWorld
  | .registry registry => { w with registry }
  | .reset => { w with bridge := w.bridge.reset.2 }
  | .invalidate cls => { w with bridge := (w.bridge.invalidate cls).2 }
  | .look lookup => { w with bridge := (w.bridge.lookUp w.registry lookup).2 }

def run (w : BridgeWorld) (steps : List BridgeStep) : BridgeWorld :=
  steps.foldl step w

@[simp]
theorem run_nil (w : BridgeWorld) : w.run [] = w := rfl

@[simp]
theorem run_cons (w : BridgeWorld) (step : BridgeStep) (steps : List BridgeStep) :
    w.run (step :: steps) = (w.step step).run steps := rfl

@[simp]
theorem run_append (w : BridgeWorld) (steps steps' : List BridgeStep) :
    w.run (steps ++ steps') = (w.run steps).run steps' :=
  List.foldl_append

variable {w : BridgeWorld} {steps : List BridgeStep} {catalog : Catalog} {registry : Registry}

theorem isEmpty_step_of_resets {step : BridgeStep} (h : step.Resets) :
    (w.step step).bridge.IsEmpty := by
  cases step with
  | reset => exact Bridge.isEmpty_reset
  | invalidate cls =>
      obtain rfl : cls = .protocolMetadata := h
      exact Bridge.isEmpty_reset
  | registry registry => cases h
  | look lookup => cases h

/-- Only a reset or a lookup touches the bridge. -/
theorem bridge_step_of_not_resets {step : BridgeStep} (h : ¬ step.Resets)
    (hlook : ∀ lookup, step ≠ .look lookup) : (w.step step).bridge = w.bridge := by
  cases step with
  | registry registry => rfl
  | reset => exact absurd trivial h
  | invalidate cls => exact congrArg Prod.snd (if_neg h)
  | look lookup => exact absurd rfl (hlook lookup)

/-- A catalog that is kept is kept until the next reset. -/
theorem holds_run (h : w.bridge.Holds catalog) (hquiet : ∀ step ∈ steps, ¬ step.Resets) :
    (w.run steps).bridge.Holds catalog := by
  induction steps generalizing w with
  | nil => exact h
  | cons step steps ih =>
      obtain ⟨hstep, hsteps⟩ := List.forall_mem_cons.mp hquiet
      apply ih _ hsteps
      cases step with
      | look lookup => exact h.lookUp_snd w.registry lookup
      | _ => rwa [bridge_step_of_not_resets hstep nofun]

/-- A registry that says one thing or nothing leaves a bridge agreeing with that one thing. -/
theorem agrees_run_of_loads {reading : Except Fault Catalog} (h : w.bridge.Agrees reading)
    (hload : ∀ loaded, Catalog.load w.registry = .ok loaded → reading = .ok loaded)
    (hsteps : ∀ registry, BridgeStep.registry registry ∈ steps →
      ∀ loaded, Catalog.load registry = .ok loaded → reading = .ok loaded) :
    (w.run steps).bridge.Agrees reading := by
  induction steps generalizing w with
  | nil => exact h
  | cons step steps ih =>
      have hrest : ∀ registry, BridgeStep.registry registry ∈ steps →
          ∀ loaded, Catalog.load registry = .ok loaded → reading = .ok loaded :=
        fun registry hregistry => hsteps registry (List.mem_cons_of_mem _ hregistry)
      rw [run_cons]
      cases step with
      | registry registry => exact ih h (hsteps registry List.mem_cons_self) hrest
      | reset => exact ih (Bridge.isEmpty_reset.agrees reading) hload hrest
      | invalidate cls =>
          refine ih ?_ hload hrest
          by_cases hresets : (BridgeStep.invalidate cls).Resets
          · exact (isEmpty_step_of_resets hresets).agrees reading
          · rwa [bridge_step_of_not_resets hresets nofun]
      | look lookup => exact ih (h.lookUp_snd hload lookup) hload hrest

/-- Only a change of the registry changes it. -/
theorem registry_run (hstays : ∀ step ∈ steps, ∀ registry, step ≠ .registry registry) :
    (w.run steps).registry = w.registry := by
  induction steps generalizing w with
  | nil => rfl
  | cons step steps ih =>
      obtain ⟨hstep, hsteps⟩ := List.forall_mem_cons.mp hstays
      rw [run_cons, ih hsteps]
      cases step with
      | registry registry => exact absurd rfl (hstep registry)
      | _ => rfl

/-- While the registry stays as it is, a bridge that agrees with it goes on agreeing with it. -/
theorem agrees_run (h : w.bridge.Agrees (Catalog.load w.registry))
    (hstays : ∀ step ∈ steps, ∀ registry, step ≠ .registry registry) :
    (w.run steps).registry = w.registry
      ∧ (w.run steps).bridge.Agrees (Catalog.load w.registry) :=
  ⟨registry_run hstays, agrees_run_of_loads h (fun _ => id) fun registry hregistry =>
    absurd rfl (hstays _ hregistry registry)⟩

/-! ## The first reading -/

/-- No lookup since the last reset has found the registry consistent. -/
def Unread (w : BridgeWorld) (steps : List BridgeStep) : Prop :=
  ∀ before lookup after, steps = before ++ .look lookup :: after →
    (∀ step ∈ after, ¬ step.Resets) →
      ∃ fault, Catalog.load (w.run before).registry = .error fault

/-- What the registry said at the first lookup since the last reset that found it consistent. -/
def FirstReading (w : BridgeWorld) (steps : List BridgeStep) (registry : Registry) : Prop :=
  ∃ before lookup after, steps = before ++ .look lookup :: after
    ∧ (∀ step ∈ after, ¬ step.Resets) ∧ w.Unread before
    ∧ (w.run before).registry = registry
    ∧ ∃ catalog, Catalog.load registry = .ok catalog

/-- A reset starts over, so the next lookup goes by the registry as it then is. -/
theorem not_firstReading_of_resets {step : BridgeStep} (h : step.Resets) (read : Registry) :
    ¬ w.FirstReading (steps ++ [step]) read := by
  rintro ⟨before, lookup, after, hsplit, hquiet, -⟩
  rcases after.eq_nil_or_concat' with rfl | ⟨after, last, rfl⟩
  · obtain ⟨-, hlast⟩ := List.append_inj' hsplit rfl
    obtain rfl := List.singleton_inj.mp hlast
    exact h
  · rw [← List.cons_append, ← List.append_assoc] at hsplit
    obtain ⟨-, hlast⟩ := List.append_inj' hsplit rfl
    obtain rfl := List.singleton_inj.mp hlast
    exact hquiet step (by simp) h

/-- A step that is no reset does not undo a reading. -/
theorem Unread.of_concat {step : BridgeStep} (h : w.Unread (steps ++ [step]))
    (hstep : ¬ step.Resets) : w.Unread steps := by
  rintro before lookup after rfl hquiet
  apply h before lookup (after ++ [step]) (by simp)
  intro other hother
  rcases List.mem_append.mp hother with hafter | hlast
  · exact hquiet other hafter
  · rwa [List.mem_singleton.mp hlast]

/-- Since the last reset there was a first reading or none. -/
theorem exists_firstReading_of_not_unread (h : ¬ w.Unread steps) :
    ∃ registry, w.FirstReading steps registry := by
  induction hlength : steps.length using Nat.strongRecOn generalizing steps with
  | ind length ih =>
      simp only [Unread, not_forall] at h
      obtain ⟨before, lookup, after, rfl, hquiet, hread⟩ := h
      by_cases hbefore : w.Unread before
      · refine ⟨_, before, lookup, after, rfl, hquiet, hbefore, rfl, ?_⟩
        cases hload : Catalog.load (w.run before).registry with
        | error fault => exact absurd ⟨fault, hload⟩ hread
        | ok catalog => exact ⟨catalog, rfl⟩
      · -- an earlier lookup has read the registry, and nothing was reset since
        have hshorter : before.length < length := by
          rw [← hlength, List.length_append, List.length_cons]
          omega
        obtain ⟨registry, earlier, first, later, rfl, hlater, hfirst⟩ :=
          ih before.length hshorter hbefore rfl
        refine ⟨registry, earlier, first, later ++ .look lookup :: after, by simp, ?_, hfirst⟩
        intro step hstep
        rcases List.mem_append.mp hstep with hlate | hrest
        · exact hlater step hlate
        · rcases List.mem_cons.mp hrest with rfl | hafter
          · exact id
          · exact hquiet step hafter

/-- Until the registry was read, nothing is kept. -/
theorem isEmpty_run (h : w.bridge.IsEmpty) (hunread : w.Unread steps) :
    (w.run steps).bridge.IsEmpty := by
  induction steps using List.reverseRecOn with
  | nil => exact h
  | append_singleton steps step ih =>
      rw [run_append, run_cons, run_nil]
      by_cases hstep : step.Resets
      · exact isEmpty_step_of_resets hstep
      · have hbefore := ih (hunread.of_concat hstep)
        cases step with
        | look lookup =>
            obtain ⟨fault, hload⟩ := hunread steps lookup [] rfl (List.forall_mem_nil _)
            change ((w.run steps).bridge.lookUp (w.run steps).registry lookup).2.IsEmpty
            rwa [hbefore.lookUp_snd hload]
        | _ => rwa [bridge_step_of_not_resets hstep nofun]

theorem FirstReading.exists_load (h : w.FirstReading steps registry) :
    ∃ catalog, Catalog.load registry = .ok catalog := by
  obtain ⟨before, lookup, after, -, -, -, -, hload⟩ := h
  exact hload

/-- Once the registry was read, its catalog is kept. -/
theorem holds_of_firstReading (h : w.bridge.IsEmpty) (hfirst : w.FirstReading steps registry)
    (hload : Catalog.load registry = .ok catalog) : (w.run steps).bridge.Holds catalog := by
  obtain ⟨before, lookup, after, rfl, hquiet, hunread, rfl, -⟩ := hfirst
  rw [run_append, run_cons]
  exact holds_run ((isEmpty_run h hunread).holds_lookUp hload lookup) hquiet

/-- Where there was no first reading, nothing is kept. -/
theorem isEmpty_of_no_firstReading (h : w.bridge.IsEmpty)
    (hnone : ∀ read, ¬ w.FirstReading steps read) : (w.run steps).bridge.IsEmpty := by
  apply isEmpty_run h
  by_contra hread
  obtain ⟨read, hfirst⟩ := exists_firstReading_of_not_unread hread
  exact hnone read hfirst

/-- Whatever happens to a new bridge and its registry, a lookup finds what it would find in the
first reading since the last reset, or, while there is none, in the registry as it is. Nothing is
kept before that reading. From then on its catalog is kept, and the views that are kept are those
of versions in it. -/
theorem find_eq_on_firstReading (registry : Registry) (steps : List BridgeStep) :
    let w := (new registry).run steps
    (∀ read, (new registry).FirstReading steps read →
      w.bridge.catalog = (Catalog.load read).toOption
        ∧ ∀ lookup, w.find lookup = lookup.on (Catalog.load read))
    ∧ ((∀ read, ¬ (new registry).FirstReading steps read) →
      w.bridge.catalog = none ∧ w.bridge.views = ∅
        ∧ ∀ lookup, w.find lookup = lookup.on (Catalog.load w.registry))
    ∧ ∀ (token : String) (view : View), w.bridge.views[token]? = some view →
      ∃ catalog version, w.bridge.catalog = some catalog
        ∧ catalog.versions[token]? = some version ∧ catalog.buildView version = .ok view := by
  intro w
  have hnew : (new registry).bridge.IsEmpty := Bridge.isEmpty_new
  refine ⟨?_, ?_, ?_⟩
  · intro read hfirst
    obtain ⟨catalog, hload⟩ := hfirst.exists_load
    have hholds := holds_of_firstReading hnew hfirst hload
    rw [hload]
    exact ⟨hholds.catalog_eq, (hholds.gives w.registry).lookUp_fst⟩
  · intro hnone
    have hempty := isEmpty_of_no_firstReading hnew hnone
    exact ⟨hempty.catalog_eq, hempty.views_eq, (hempty.agrees _).gives.lookUp_fst⟩
  · intro token view hkept
    by_cases hread : ∃ read, (new registry).FirstReading steps read
    · obtain ⟨read, hfirst⟩ := hread
      obtain ⟨catalog, hload⟩ := hfirst.exists_load
      have hholds := holds_of_firstReading hnew hfirst hload
      have hview := hholds.view_eq token view hkept
      rw [Catalog.view] at hview
      split at hview
      · cases hview
      · next version hversion => exact ⟨catalog, version, hholds.catalog_eq, hversion, hview⟩
    · have hempty := isEmpty_of_no_firstReading hnew (not_exists.mp hread)
      rw [hempty.views_eq, ExtTreeMap.getElem?_empty] at hkept
      cases hkept

/-- Tables that are added after the first reading are not found until the bridge is reset. -/
theorem find_eq_on_firstReading_of_secondEdition :
    let start := new ⟨.ok Catalog.twoVersions, .ok [Catalog.jobs]⟩
    let steps : List BridgeStep :=
      [.look (.tableName 5), .registry ⟨.ok Catalog.twoVersions, .ok Catalog.secondEdition⟩,
        .invalidate .identity]
    start.FirstReading steps start.registry
      ∧ (start.run steps).find (.tableToCanonical "v2" 1) = .ok (.number unmapped)
      ∧ (∀ read, ¬ start.FirstReading (steps ++ [.reset]) read)
      ∧ (start.run (steps ++ [.reset])).find (.tableToCanonical "v2" 1) = .ok (.number 7) := by
  intro start steps
  have hfirst : start.FirstReading steps start.registry := by
    refine ⟨[], .tableName 5, steps.tail, rfl, ?_, ?_, rfl, ?_⟩
    · simp [steps, BridgeStep.Resets]
    · intro before lookup after hsplit
      simp at hsplit
    · cases hload : Catalog.load start.registry with
      | error fault =>
          have hloads : (Catalog.load start.registry).isOk = true := by decide +kernel
          rw [hload] at hloads
          cases hloads
      | ok catalog => exact ⟨catalog, rfl⟩
  have hreset : ∀ read, ¬ start.FirstReading (steps ++ [.reset]) read :=
    not_firstReading_of_resets trivial
  refine ⟨hfirst, ?_, hreset, ?_⟩
  · refine (((find_eq_on_firstReading _ steps).1 _ hfirst).2 _).trans ?_
    decide +kernel
  · refine (((find_eq_on_firstReading _ (steps ++ [.reset])).2.1 hreset).2.2 _).trans ?_
    decide +kernel

end BridgeWorld

end ControlPlane
