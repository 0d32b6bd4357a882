/-
# Lookups that overtake each other

A lookup stands if what it has in hand was read since it started, and a bridge is fresh if what it
keeps was read since the last reset. Whichever lookup moves next, it stands afterwards and leaves
the bridge fresh, and the others stand as they did. So however lookups, resets and changes of the
registry follow one another, nothing is kept that was read before the last reset, and nothing is
answered that was read before the lookup started.
-/

import ControlPlane.Proofs.Protocol.Provenance
import ControlPlane.Proofs.Protocol.Views

namespace ControlPlane

namespace SharedBridge

variable {w w' : SharedBridge}

/-! ## Steps of the world -/

/-- Taking up a read changes nothing else. -/
theorem follows_note (w : SharedBridge) (kind : ReadKind) (began : Nat) (registry : Registry) :
    w.Follows (w.note kind began registry) := by
  cases kind with
  | versions =>
      exact ⟨Nat.le_refl _, List.subset_cons_self _ _, List.Subset.refl _, fun _ _ => id⟩
  | tables =>
      exact ⟨Nat.le_refl _, List.Subset.refl _, List.subset_cons_self _ _, fun _ _ => id⟩

theorem noted_note (w : SharedBridge) (kind : ReadKind) (began : Nat) (registry : Registry) :
    (w.note kind began registry).Noted began registry kind := by
  cases kind <;> exact List.mem_cons_self

/-- What is kept stays fresh while neither the bridge nor its resets change. -/
theorem KeepsFresh.of_follows (h : w.KeepsFresh) (hfollows : w.Follows w')
    (hbridge : w'.bridge = w.bridge) (hresets : w'.resets = w.resets) : w'.KeepsFresh where
  generation := by rw [hbridge, hresets, h.generation]
  catalog := fun catalog hcatalog => by
    rw [hbridge] at hcatalog
    rw [hresets]
    exact (h.catalog catalog hcatalog).mono hfollows (Nat.le_refl _)
  views := by rw [hbridge]; exact h.views

/-- A lookup that moves leaves a world in which it stands, and which is as fresh as before. -/
structure Moves (w w' : SharedBridge) (n : Nat) (l : Lookup) : Prop where
  follows : w.Follows w'
  fresh : w'.KeepsFresh
  resets : w'.resets = w.resets
  moved : ∃ l', w'.lookups = w.lookups.set n l' ∧ l'.since = l.since ∧ l'.last = w'.resets
    ∧ l'.errand.Stands w' l'.since l'.reading

section

variable {n : Nat} {l : Lookup}

theorem moves_act (hfresh : w.KeepsFresh) (hsince : l.since ≤ w.resets)
    (hspan : w.resets < l.since + UInt64.size) (hstands : l.errand.Stands w l.since l.reading)
    {registry : Registry}
    (hread : ∀ kind, l.errand.readKind? = some kind →
      ∃ began, l.reading = .answered began registry ∧ w.Noted began registry kind) :
    w.Moves (w.act n l registry) n l := by
  have hstep := stands_step hfresh hsince hspan hstands hread
  rw [act]
  rcases hact : l.errand.step registry w.bridge with ⟨errand, bridge⟩
  rw [hact] at hstep
  obtain ⟨hfollows, hfresh', hstands'⟩ := hstep
  have hput : SharedBridge.Follows { w with bridge }
      ({ w with bridge }.put n { l with errand, reading := .idle }) :=
    ⟨Nat.le_refl _, List.Subset.refl _, List.Subset.refl _, fun _ _ => id⟩
  exact {
    follows := ⟨hfollows.resets, hfollows.versionReads, hfollows.tableReads, hfollows.catalog⟩
    fresh := hfresh'.of_follows hput rfl rfl
    resets := rfl
    moved := ⟨_, rfl, rfl, rfl, hstands'.mono hput⟩ }

/-- A lookup that begins a read, or has it answered, is where it was. -/
theorem moves_put (hfresh : w.KeepsFresh) {reading : Reading}
    (hstands : l.errand.Stands w l.since reading) : w.Moves (w.put n { l with reading }) n l := by
  have hput : w.Follows (w.put n { l with reading }) :=
    ⟨Nat.le_refl _, List.Subset.refl _, List.Subset.refl _, fun _ _ => id⟩
  exact {
    follows := hput
    fresh := hfresh.of_follows hput rfl rfl
    resets := rfl
    moved := ⟨_, rfl, rfl, rfl, hstands.mono hput⟩ }

theorem moves_move (hfresh : w.KeepsFresh) (hsince : l.since ≤ w.resets)
    (hspan : w.resets < l.since + UInt64.size) (hstands : l.errand.Stands w l.since l.reading) :
    w.Moves (w.move n l) n l := by
  rw [move]
  split
  · next hkind =>
    exact moves_act hfresh hsince hspan hstands (by simp [hkind])
  · next hreading =>
    exact moves_put hfresh (hstands.of_reading fun _ hle _ => hle)
  · next began hreading =>
    rw [hreading] at hstands
    exact moves_put hfresh (hstands.of_reading fun _ _ hbegan => hbegan)
  · next kind began registry hkind hreading =>
    have hnote := follows_note w kind began registry
    have hsame : (w.note kind began registry).resets = w.resets := by cases kind <;> rfl
    have hfresh' := hfresh.of_follows hnote (by cases kind <;> rfl) hsame
    have hmoves : (w.note kind began registry).Moves
        ((w.note kind began registry).act n l registry) n l := by
      refine moves_act hfresh' (by rwa [hsame]) (by rwa [hsame]) (hstands.mono hnote) ?_
      intro kind' hkind'
      obtain rfl : kind = kind' := Option.some.inj (hkind.symm.trans hkind')
      exact ⟨began, hreading, noted_note w kind began registry⟩
    exact {
      follows := hnote.trans hmoves.follows
      fresh := hmoves.fresh
      resets := hmoves.resets.trans hsame
      moved := by
        have hlookups : (w.note kind began registry).lookups = w.lookups := by cases kind <;> rfl
        rw [← hlookups]
        exact hmoves.moved }

end

/-! ## Runs -/

/-- What is kept is fresh, and every lookup stands. -/
structure Sound (w : SharedBridge) : Prop where
  fresh : w.KeepsFresh
  stands : ∀ l ∈ w.lookups, l.errand.Stands w l.since l.reading

theorem sound_new (registry : Registry) : (new registry).Sound where
  fresh := ⟨rfl, by simp [new], by simp [new]⟩
  stands l hl := absurd hl List.not_mem_nil

/-- What stood before stands after a reset: nothing is kept that could be stale. -/
theorem Sound.reset (h : w.Sound) : (w.step .reset).Sound := by
  have hfollows : w.Follows (w.step .reset) := by
    refine ⟨Nat.le_succ _, List.Subset.refl _, List.Subset.refl _, fun hsame => ?_⟩
    exact absurd hsame (Nat.succ_ne_self _)
  refine ⟨⟨?_, nofun, fun token view hview => by simp [SharedBridge.step, Bridge.reset] at hview⟩,
    fun l hl => (h.stands l hl).mono hfollows⟩
  change w.bridge.generation + 1 = UInt64.ofNat (w.resets + 1)
  rw [h.fresh.generation]
  exact (UInt64.ofNat_add _ _).symm

theorem Sound.start (h : w.Sound) {errand : Errand}
    (hstands : errand.Stands (w.start errand) w.resets .idle) : (w.start errand).Sound := by
  have hfollows : w.Follows (w.start errand) :=
    ⟨Nat.le_refl _, List.Subset.refl _, List.Subset.refl _, fun _ _ => id⟩
  refine ⟨h.fresh.of_follows hfollows rfl rfl, fun l hl => ?_⟩
  rcases List.mem_append.mp hl with hbefore | hlast
  · exact (h.stands l hbefore).mono hfollows
  · obtain rfl := List.mem_singleton.mp hlast
    exact hstands

theorem Sound.step (h : w.Sound) (horder : w.InOrder) {turn : BridgeTurn}
    (hspan : (w.step turn).NotOvertaken) : (w.step turn).Sound := by
  cases turn with
  | registry registry =>
      have hfollows : w.Follows { w with registry } :=
        ⟨Nat.le_refl _, List.Subset.refl _, List.Subset.refl _, fun _ _ => id⟩
      exact ⟨h.fresh.of_follows hfollows rfl rfl, fun l hl => (h.stands l hl).mono hfollows⟩
  | reset => exact h.reset
  | lookUpView token => exact h.start trivial
  | lookUpCatalog => exact h.start trivial
  | advance n =>
      rw [SharedBridge.step] at hspan ⊢
      cases hl : w.lookups[n]? with
      | none => exact h
      | some l =>
          have hmem := List.mem_of_getElem? hl
          simp only [hl] at hspan
          have hmoved : w.resets < l.since + UInt64.size := by
            obtain ⟨-, l', hlookups, hsince, hlast⟩ := lookups_move w n l
            rw [← hlast, ← hsince]
            apply hspan
            rw [hlookups]
            exact List.mem_set (List.getElem?_eq_some_iff.mp hl).1 l'
          have hmoves : w.Moves (w.move n l) n l :=
            moves_move h.fresh (Nat.le_trans (horder l hmem).1 (horder l hmem).2) hmoved
              (h.stands l hmem)
          obtain ⟨l', hlookups, hsince, hlast, hstands⟩ := hmoves.moved
          refine ⟨hmoves.fresh, fun other hother => ?_⟩
          simp only [hlookups] at hother
          rcases List.mem_or_eq_of_mem_set hother with hbefore | rfl
          · exact (h.stands other hbefore).mono hmoves.follows
          · exact hstands

theorem sound_run {registry : Registry} {turns : List BridgeTurn}
    (h : ((new registry).run turns).NotOvertaken) : ((new registry).run turns).Sound := by
  induction turns using List.reverseRecOn with
  | nil => exact sound_new registry
  | append_singleton turns turn ih =>
      have horder := inOrder_run registry turns
      rw [run_concat] at h ⊢
      exact (ih (h.of_step horder)).step horder h

/-- In whatever order lookups, resets and the registry come in, what a bridge keeps was read
since the last reset, and its views are those of the catalog that it keeps. A lookup answers from
what was read since it started, which is since every reset before it. -/
theorem kept_and_answered_readSince {registry : Registry} {turns : List BridgeTurn}
    (h : ((new registry).run turns).NotOvertaken) :
    let w := (new registry).run turns
    (∀ catalog, w.bridge.catalog = some catalog → w.ReadSince w.resets (.ok catalog))
    ∧ (∀ (token : String) (view : View), w.bridge.views[token]? = some view →
        ∃ catalog, w.bridge.catalog = some catalog ∧ catalog.view token = .ok view)
    ∧ (∀ l ∈ w.lookups, ∀ result, l.errand = .catalog (.finished result) →
        w.ReadSince l.since result)
    ∧ (∀ l ∈ w.lookups, ∀ token result, l.errand = .view token (.finished result) →
        ∃ reading, w.ReadSince l.since reading ∧ result = (reading >>= (·.view token)))
    ∧ ∀ before after, turns = before ++ after → ∀ n l, w.lookups[n]? = some l →
        ((new registry).run before).lookups.length ≤ n →
        ((new registry).run before).resets ≤ l.since := by
  intro w
  have hsound : w.Sound := sound_run h
  refine ⟨hsound.fresh.catalog, hsound.fresh.views, ?_, ?_, ?_⟩
  · intro l hl result hresult
    have hstands := hsound.stands l hl
    rwa [hresult] at hstands
  · intro l hl token result hresult
    have hstands := hsound.stands l hl
    rwa [hresult] at hstands
  · rintro before after rfl n l hl hn
    exact (passed_run registry before after).le_since n l hl hn

/-- The registry changes and the bridge is reset while a lookup reads the tables. That lookup
answers from what it read, and none of it is kept; the next lookup answers from the registry as it
has become. -/
theorem kept_and_answered_readSince_of_resetDuringRead :
    let first : List BridgeTurn := .lookUpView "v2" :: List.replicate 9 (.advance 0)
    let second : List BridgeTurn :=
      [.registry ⟨.ok Catalog.twoVersions, .ok Catalog.secondEdition⟩, .reset]
        ++ List.replicate 4 (.advance 0) ++ .lookUpView "v2" :: List.replicate 13 (.advance 1)
    let w := (new ⟨.ok Catalog.twoVersions, .ok [Catalog.jobs]⟩).run (first ++ second)
    w.NotOvertaken
      ∧ (∀ catalog, w.bridge.catalog = some catalog → w.ReadSince 1 (.ok catalog))
      ∧ ∃ l ∈ w.lookups, l.since = 1 ∧ ∃ view, l.errand = .view "v2" (.finished (.ok view))
        ∧ view.tables.ids = [5, 7]
        ∧ ∃ reading, w.ReadSince 1 reading ∧ .ok view = (reading >>= (·.view "v2")) := by
  intro first second w
  have hresets : w.resets = 1 := by decide +kernel
  have hspan : w.NotOvertaken := notOvertaken_run (by rw [hresets]; decide)
  obtain ⟨hcatalog, -, -, hview, -⟩ := kept_and_answered_readSince hspan
  refine ⟨hspan, ?_, ?_⟩
  · rwa [hresets] at hcatalog
  · have hanswered : w.lookups.any (fun l =>
        match l.errand with
        | .view token (.finished (.ok view)) =>
            l.since == 1 && token == "v2" && view.tables.ids == [5, 7]
        | _ => false) = true := by decide +kernel
    obtain ⟨l, hl, hanswer⟩ := List.any_eq_true.mp hanswered
    split at hanswer
    · next token view herrand =>
      simp only [Bool.and_eq_true, beq_iff_eq] at hanswer
      obtain ⟨⟨hsince, rfl⟩, hids⟩ := hanswer
      have hread := hview l hl "v2" (.ok view) herrand
      rw [hsince] at hread
      exact ⟨l, hl, hsince, view, herrand, hids, hread⟩
    · cases hanswer

end SharedBridge

end ControlPlane
