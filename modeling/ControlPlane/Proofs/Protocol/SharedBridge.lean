/-
# Lookups that share a bridge

Any number of lookups go through one bridge at a time. Each moves by its own steps, and between
two of them the bridge may be reset, the registry may change and other lookups may move. A read of
the registry is no single step either: it begins, it is answered with what the registry says at
some later moment, and then the lookup goes on, so that a reset may fall into the read itself.

Lookups start one after the other, and none moves before it has started. The generation of a bridge
is a word: a lookup could take it for its own again after `UInt64.size` resets, and `NotOvertaken`
excludes just that. A lookup that is left to itself ends as the lookup does that runs in one go.
-/

import ControlPlane.Proofs.Protocol.Lookup
import Mathlib.Data.List.Induction

namespace ControlPlane

/-! ## The world -/

/-- A read of the registry. -/
structure RegistryRead (α : Type) where
  /-- How often the bridge had been reset when the read began. -/
  began : Nat
  answer : Except Fault α

/-- How far a lookup is with a read of the registry. -/
inductive Reading
  | idle
  | begun (began : Nat)
  /-- The registry has answered, and the lookup has not gone on. -/
  | answered (began : Nat) (registry : Registry)

/-- What a lookup is after, and how far it is. -/
inductive Errand
  | view (token : String) (progress : Progress ViewStage View)
  | catalog (progress : Progress CatalogStage Catalog)

structure Lookup where
  errand : Errand
  reading : Reading := .idle
  /-- How often the bridge had been reset when the lookup started. -/
  since : Nat
  /-- How often the bridge had been reset when the lookup took its last step. -/
  last : Nat

/-- A bridge, its registry and the lookups that have been started. -/
structure SharedBridge where
  registry : Registry
  bridge : Bridge := {}
  lookups : List Lookup := []
  /-- How often the bridge was reset. -/
  resets : Nat := 0
  /-- The reads that were answered and taken up by their lookups. -/
  versionReads : List (RegistryRead (List ProtocolVersion)) := []
  tableReads : List (RegistryRead (List TableDescriptor)) := []

/-- Something that happens to a bridge in use. -/
inductive BridgeTurn
  /-- From now on the registry says something else, or cannot be reached. -/
  | registry (registry : Registry)
  | reset
  | lookUpView (token : String)
  | lookUpCatalog
  /-- The lookup that was started as the `n`th moves. -/
  | advance (n : Nat)

/-- What is read of the registry at a stage. -/
inductive ReadKind
  | versions
  | tables

def CatalogStage.readKind? : CatalogStage → Option ReadKind
  | readVersions _ => some .versions
  | readTables .. => some .tables
  | find | readGeneration | publish .. => none

namespace Errand

/-- What an errand is about to read of the registry. -/
def readKind? : Errand → Option ReadKind
  | view _ (.running (.fetchCatalog _ stage)) | catalog (.running stage) => stage.readKind?
  | view .. | catalog _ => none

/-- One step of an errand, which does nothing once it is over. -/
def step (registry : Registry) (bridge : Bridge) : Errand → Errand × Bridge
  | view token (.running stage) =>
      let (progress, bridge) := bridge.stepView registry token stage
      (view token progress, bridge)
  | catalog (.running stage) =>
      let (progress, bridge) := bridge.stepCatalog registry stage
      (catalog progress, bridge)
  | errand => (errand, bridge)

end Errand

namespace SharedBridge

/-- A new bridge. -/
def new (registry : Registry) : SharedBridge where
  registry

/-- A lookup starts. -/
def start (w : SharedBridge) (errand : Errand) : SharedBridge :=
  { w with lookups := w.lookups ++ [{ errand, since := w.resets, last := w.resets }] }

/-- A lookup is now as given, and has just moved. -/
def put (w : SharedBridge) (n : Nat) (l : Lookup) : SharedBridge :=
  { w with lookups := w.lookups.set n { l with last := w.resets } }

/-- A read is taken up. -/
def note (w : SharedBridge) (kind : ReadKind) (began : Nat) (registry : Registry) : SharedBridge :=
  match kind with
  | .versions => { w with versionReads := ⟨began, registry.versions⟩ :: w.versionReads }
  | .tables => { w with tableReads := ⟨began, registry.tables⟩ :: w.tableReads }

/-- A lookup takes the next step of its errand. -/
def act (w : SharedBridge) (n : Nat) (l : Lookup) (registry : Registry) : SharedBridge :=
  let (errand, bridge) := l.errand.step registry w.bridge
  { w with bridge }.put n { l with errand, reading := .idle }

/-- A lookup moves. Where it needs the registry, it begins a read, then has it answered, then
takes up the answer. -/
def move (w : SharedBridge) (n : Nat) (l : Lookup) : SharedBridge :=
  match l.errand.readKind?, l.reading with
  | none, _ => w.act n l w.registry
  | some _, .idle => w.put n { l with reading := .begun w.resets }
  | some _, .begun began => w.put n { l with reading := .answered began w.registry }
  | some kind, .answered began registry => (w.note kind began registry).act n l registry

def step (w : SharedBridge) : BridgeTurn → SharedBridge
  | .registry registry => { w with registry }
  | .reset => { w with bridge := w.bridge.reset.2, resets := w.resets + 1 }
  | .lookUpView token => w.start (.view token (.running .find))
  | .lookUpCatalog => w.start (.catalog (.running .find))
  | .advance n =>
      match w.lookups[n]? with
      | none => w
      | some l => w.move n l

def run (w : SharedBridge) (turns : List BridgeTurn) : SharedBridge :=
  turns.foldl step w

theorem run_concat (w : SharedBridge) (turns : List BridgeTurn) (turn : BridgeTurn) :
    w.run (turns ++ [turn]) = (w.run turns).step turn :=
  List.foldl_append

/-- No lookup takes a step after it was overtaken by so many resets that the generation it had
read may have come around. -/
def NotOvertaken (w : SharedBridge) : Prop :=
  ∀ l ∈ w.lookups, l.last < l.since + UInt64.size

variable {w : SharedBridge}

/-! ## The order of lookups -/

/-- Whatever a lookup does, it is the only one that moves. -/
theorem lookups_move (w : SharedBridge) (n : Nat) (l : Lookup) :
    (w.move n l).resets = w.resets
      ∧ ∃ l', (w.move n l).lookups = w.lookups.set n l' ∧ l'.since = l.since
        ∧ l'.last = w.resets := by
  rw [move]
  split
  · exact ⟨rfl, _, rfl, rfl, rfl⟩
  · exact ⟨rfl, _, rfl, rfl, rfl⟩
  · exact ⟨rfl, _, rfl, rfl, rfl⟩
  · next kind began registry _ _ => cases kind <;> exact ⟨rfl, _, rfl, rfl, rfl⟩

/-- No lookup has moved before it started or later than now. -/
def InOrder (w : SharedBridge) : Prop :=
  ∀ l ∈ w.lookups, l.since ≤ l.last ∧ l.last ≤ w.resets

theorem InOrder.step (h : w.InOrder) (turn : BridgeTurn) : (w.step turn).InOrder := by
  have hstart (errand : Errand) : (w.start errand).InOrder := by
    intro l hl
    rcases List.mem_append.mp hl with hbefore | hlast
    · exact h l hbefore
    · obtain rfl := List.mem_singleton.mp hlast
      exact ⟨Nat.le_refl _, Nat.le_refl _⟩
  cases turn with
  | registry registry => exact h
  | reset => exact fun l hl => ⟨(h l hl).1, Nat.le_succ_of_le (h l hl).2⟩
  | lookUpView token => exact hstart _
  | lookUpCatalog => exact hstart _
  | advance n =>
      rw [SharedBridge.step]
      cases hl : w.lookups[n]? with
      | none => exact h
      | some l =>
          obtain ⟨hresets, l', hlookups, hsince, hlast⟩ := lookups_move w n l
          intro other hother
          simp only [hlookups] at hother
          rw [hresets]
          rcases List.mem_or_eq_of_mem_set hother with hbefore | rfl
          · exact h other hbefore
          · have horder := h l (List.mem_of_getElem? hl)
            omega

/-- Lookups that have not been overtaken now were not overtaken before. -/
theorem NotOvertaken.of_step {turn : BridgeTurn} (h : (w.step turn).NotOvertaken)
    (horder : w.InOrder) : w.NotOvertaken := by
  cases turn with
  | registry registry => exact h
  | reset => exact h
  | lookUpView token => exact fun l hl => h l (List.mem_append_left _ hl)
  | lookUpCatalog => exact fun l hl => h l (List.mem_append_left _ hl)
  | advance n =>
      rw [SharedBridge.step] at h
      cases hl : w.lookups[n]? with
      | none => rwa [hl] at h
      | some l =>
          rw [hl] at h
          obtain ⟨-, l', hlookups, hsince, hlast⟩ := lookups_move w n l
          obtain ⟨hn, rfl⟩ := List.getElem?_eq_some_iff.mp hl
          have hmoved : l'.last < l'.since + UInt64.size := by
            apply h
            rw [hlookups]
            exact List.mem_set hn l'
          intro other hother
          obtain ⟨m, hm, rfl⟩ := List.getElem_of_mem hother
          by_cases heq : n = m
          · subst heq
            have hle := (horder _ hother).2
            omega
          · apply h
            rw [hlookups]
            exact List.mem_of_getElem?
              ((List.getElem?_set_ne heq).trans (List.getElem?_eq_getElem hm))

theorem inOrder_run (registry : Registry) (turns : List BridgeTurn) :
    ((new registry).run turns).InOrder := by
  induction turns using List.reverseRecOn with
  | nil => exact fun l hl => absurd hl List.not_mem_nil
  | append_singleton turns turn ih =>
      rw [run_concat]
      exact ih.step turn

/-- Nothing is overtaken on a bridge that was reset fewer times than there are words. -/
theorem notOvertaken_run {registry : Registry} {turns : List BridgeTurn}
    (h : ((new registry).run turns).resets < UInt64.size) :
    ((new registry).run turns).NotOvertaken := by
  intro l hl
  have hlast := (inOrder_run registry turns l hl).2
  omega

/-- At some moment `started` lookups had been started and there had been `resets` resets. -/
structure Passed (started resets : Nat) (w : SharedBridge) : Prop where
  started_le : started ≤ w.lookups.length
  resets_le : resets ≤ w.resets
  le_since : ∀ (n : Nat) (l : Lookup), w.lookups[n]? = some l → started ≤ n → resets ≤ l.since

theorem Passed.step {started resets : Nat} (h : w.Passed started resets) (turn : BridgeTurn) :
    (w.step turn).Passed started resets := by
  obtain ⟨hstarted, hresets, hsince⟩ := h
  have hstart (errand : Errand) : (w.start errand).Passed started resets := by
    refine ⟨?_, hresets, fun n l hl hn => ?_⟩
    · simp only [start, List.length_append]
      omega
    · rcases Nat.lt_or_ge n w.lookups.length with hlt | hge
      · exact hsince n l ((List.getElem?_append_left hlt).symm.trans hl) hn
      · have hnew := (List.getElem?_append_right hge).symm.trans hl
        obtain rfl := List.mem_singleton.mp (List.mem_of_getElem? hnew)
        exact hresets
  cases turn with
  | registry registry => exact ⟨hstarted, hresets, hsince⟩
  | reset => exact ⟨hstarted, Nat.le_succ_of_le hresets, hsince⟩
  | lookUpView token => exact hstart _
  | lookUpCatalog => exact hstart _
  | advance m =>
      rw [SharedBridge.step]
      cases hmoved : w.lookups[m]? with
      | none => exact ⟨hstarted, hresets, hsince⟩
      | some moved =>
          obtain ⟨hsame, l', hlookups, hsince', -⟩ := lookups_move w m moved
          refine ⟨?_, by rwa [hsame], fun n l hl hn => ?_⟩
          · simpa only [hlookups, List.length_set] using hstarted
          · simp only [hlookups, List.getElem?_set] at hl
            split at hl
            · next heq =>
              subst heq
              split at hl
              · obtain rfl := Option.some.inj hl
                rw [hsince']
                exact hsince m moved hmoved hn
              · cases hl
            · exact hsince n l hl hn

theorem passed_run (registry : Registry) (before after : List BridgeTurn) :
    ((new registry).run (before ++ after)).Passed ((new registry).run before).lookups.length
      ((new registry).run before).resets := by
  induction after using List.reverseRecOn with
  | nil =>
      rw [List.append_nil]
      refine ⟨Nat.le_refl _, Nat.le_refl _, fun n l hl hn => ?_⟩
      exact absurd (List.getElem?_eq_some_iff.mp hl).1 (Nat.not_lt.mpr hn)
  | append_singleton after turn ih =>
      rw [← List.append_assoc, run_concat]
      exact ih.step turn

/-! ## A lookup that nothing overtakes -/

section

variable {n : Nat} {l : Lookup}

/-- A lookup left to itself takes the next step of its errand on the registry as it is, in one
move, or in three where it reads the registry. -/
theorem exists_run_step (hl : w.lookups[n]? = some l) (hidle : l.reading = .idle) :
    ∃ moves, let w' := w.run (List.replicate moves (.advance n))
      w'.registry = w.registry ∧ w'.bridge = (l.errand.step w.registry w.bridge).2
        ∧ ∃ l', w'.lookups[n]? = some l' ∧ l'.errand = (l.errand.step w.registry w.bridge).1
          ∧ l'.reading = .idle := by
  have hn := (List.getElem?_eq_some_iff.mp hl).1
  have hset (l' : Lookup) : (w.lookups.set n l')[n]? = some l' := by
    rw [List.getElem?_set_self hn]
  cases hkind : l.errand.readKind? with
  | none =>
      refine ⟨1, ?_⟩
      simp only [List.replicate, run, List.foldl_cons, List.foldl_nil, step, hl, move, hkind]
      exact ⟨rfl, rfl, _, hset _, rfl, rfl⟩
  | some kind =>
      refine ⟨3, ?_⟩
      simp only [List.replicate, run, List.foldl_cons, List.foldl_nil, step, hl, move, hkind, hidle,
        put, hset, List.set_set]
      cases kind with
      | versions =>
          simp only [note, act, put, List.set_set]
          exact ⟨trivial, trivial, _, hset _, rfl, rfl⟩
      | tables =>
          simp only [note, act, put, List.set_set]
          exact ⟨trivial, trivial, _, hset _, rfl, rfl⟩

/-- Left to itself a lookup of a view ends as the lookup of the view does that runs in one go. -/
theorem exists_run_eq_runView {token : String} (stage : ViewStage) (hl : w.lookups[n]? = some l)
    (hidle : l.reading = .idle) (herrand : l.errand = .view token (.running stage)) :
    ∃ moves, let w' := w.run (List.replicate moves (.advance n))
      w'.bridge = (w.bridge.runView w.registry token stage).2
        ∧ ∃ l', w'.lookups[n]? = some l'
          ∧ l'.errand = .view token (.finished (w.bridge.runView w.registry token stage).1) := by
  induction hleft : stage.stepsLeft using Nat.strongRecOn generalizing w l stage with
  | ind left ih =>
      obtain ⟨moves, hregistry, hbridge, l', hl', herrand', hidle'⟩ := exists_run_step hl hidle
      rw [herrand, Errand.step] at hbridge herrand'
      rcases hstep : w.bridge.stepView w.registry token stage with ⟨next | result, bridge⟩
      · rw [hstep] at hbridge herrand'
        have hless := ViewStage.stepsLeft_lt_of_step hstep
        obtain ⟨rest, hbridge'', hl''⟩ := ih _ (hleft ▸ hless) next hl' hidle' herrand' rfl
        refine ⟨moves + rest, ?_⟩
        rw [← List.replicate_append_replicate, run, List.foldl_append, ← run, ← run,
          Bridge.runView_of_running hstep]
        rw [hregistry, hbridge] at hbridge'' hl''
        exact ⟨hbridge'', hl''⟩
      · rw [hstep] at hbridge herrand'
        rw [Bridge.runView_of_finished hstep]
        exact ⟨moves, hbridge, l', hl', herrand'⟩

end

end SharedBridge

end ControlPlane
