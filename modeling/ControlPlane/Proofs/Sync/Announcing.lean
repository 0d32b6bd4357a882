/-
# What an announcement drops

Announcements reach caches of any types and bridges, each registered once, several times or not
at all. Dropping classes from what is registered, whatever the order and the repetitions, comes
to one thing: of the registered caches exactly the slots of these classes are gone, and the
registered bridges are empty if descriptors are concerned. What is counted on the way is what is
missing afterwards.

A member is asked for one class at a time. What that drops is said once, for a cache and for a
bridge, and passes through both loops of an announcement by one lemma about drops in a row.
-/

import ControlPlane.Master
import ControlPlane.Proofs.Cache.Accounting
import ControlPlane.Proofs.Sync.Run

namespace ControlPlane

open Std (ExtTreeMap ExtTreeSet)

/-- What announcements can reach: caches that count in the same metrics, and bridges. -/
@[ext]
structure Holdings {ι : Type} (α : ι → Type) (κ : Type) extends CachePool α where
  bridges : κ → Bridge

namespace Holdings

variable {ι κ : Type} {α : ι → Type}

/-- How much a member has that counts when it is dropped: the entries of a cache, or the views of
a bridge. -/
def stored (h : Holdings α κ) : ι ⊕ κ → Nat
  | .inl i => AccessCache.entryCount (h.caches i).slots
  | .inr k => (h.bridges k).views.size

/-! ## Drops -/

/-- Of some members some classes were dropped and nothing else, and so much is missing of what
`members` had. -/
structure Drops (members : Finset (ι ⊕ κ)) (gone : Set ((ι ⊕ κ) × ResourceClass))
    (h : Holdings α κ) (evicted : Nat) (h' : Holdings α κ) : Prop where
  settings_eq (i : ι) : (h'.caches i).settings = (h.caches i).settings
  slots_gone (i : ι) (key : CacheKey) :
    (.inl i, key.cls) ∈ gone → (h'.caches i).slots[key]? = none
  slots_kept (i : ι) (key : CacheKey) :
    (.inl i, key.cls) ∉ gone → (h'.caches i).slots[key]? = (h.caches i).slots[key]?
  bridges_gone (k : κ) :
    (.inr k, .protocolMetadata) ∈ gone →
      (h'.bridges k).catalog = none ∧ (h'.bridges k).views = ∅
  bridges_kept (k : κ) : (.inr k, .protocolMetadata) ∉ gone → h'.bridges k = h.bridges k
  evicted_add : evicted + ∑ x ∈ members, h'.stored x = ∑ x ∈ members, h.stored x

variable {members : Finset (ι ⊕ κ)} {gone gone' : Set ((ι ⊕ κ) × ResourceClass)}
  {h h' h'' : Holdings α κ} {evicted evicted' : Nat}

namespace Drops

theorem refl (h : Holdings α κ) : Drops members ∅ h 0 h where
  settings_eq _ := rfl
  slots_gone _ _ hgone := absurd hgone (Set.notMem_empty _)
  slots_kept _ _ _ := rfl
  bridges_gone _ hgone := absurd hgone (Set.notMem_empty _)
  bridges_kept _ _ := rfl
  evicted_add := Nat.zero_add _

/-- What is dropped twice is gone after the first time and counted only then. -/
theorem trans (hfirst : Drops members gone h evicted h')
    (hsecond : Drops members gone' h' evicted' h'') :
    Drops members (gone ∪ gone') h (evicted + evicted') h'' where
  settings_eq i := (hsecond.settings_eq i).trans (hfirst.settings_eq i)
  slots_gone i key hgone := by
    by_cases hagain : (.inl i, key.cls) ∈ gone'
    · exact hsecond.slots_gone i key hagain
    · rw [hsecond.slots_kept i key hagain]
      exact hfirst.slots_gone i key (hgone.resolve_right hagain)
  slots_kept i key hkept := by
    rw [hsecond.slots_kept i key fun hgone => hkept (.inr hgone),
      hfirst.slots_kept i key fun hgone => hkept (.inl hgone)]
  bridges_gone k hgone := by
    by_cases hagain : (.inr k, .protocolMetadata) ∈ gone'
    · exact hsecond.bridges_gone k hagain
    · rw [hsecond.bridges_kept k hagain]
      exact hfirst.bridges_gone k (hgone.resolve_right hagain)
  bridges_kept k hkept := by
    rw [hsecond.bridges_kept k fun hgone => hkept (.inr hgone),
      hfirst.bridges_kept k fun hgone => hkept (.inl hgone)]
  evicted_add := by
    rw [← hfirst.evicted_add, ← hsecond.evicted_add, Nat.add_assoc]

end Drops

/-- Drops in a row drop together what each of them drops, and count it together. -/
theorem drops_foldl {β : Type} {drop : β → Holdings α κ → Nat × Holdings α κ}
    {gone : β → Set ((ι ⊕ κ) × ResourceClass)} {items : List β}
    (hdrop : ∀ item ∈ items, ∀ h, Drops members (gone item) h (drop item h).1 (drop item h).2)
    (h : Holdings α κ) :
    let outcome := items.foldl (fun (evicted, h) item =>
      let (dropped, h) := drop item h
      (evicted + dropped, h)) (0, h)
    Drops members {dropped | ∃ item ∈ items, dropped ∈ gone item} h outcome.1 outcome.2 := by
  induction items using List.reverseRecOn with
  | nil => simpa using Drops.refl h
  | append_singleton items item ih =>
      have hbefore := ih fun item hitem => hdrop item (List.mem_append_left _ hitem)
      have hlast := hdrop item (List.mem_append_right _ (List.mem_singleton.mpr rfl))
      have hall := hbefore.trans (hlast _)
      have hgone : {dropped | ∃ other ∈ items ++ [item], dropped ∈ gone other} =
          {dropped | ∃ other ∈ items, dropped ∈ gone other} ∪ gone item := by
        ext dropped
        simp [or_and_right, exists_or]
      simp only [List.foldl_concat]
      rw [hgone]
      exact hall

/-! ## Members that drop a class -/

variable [DecidableEq ι] [DecidableEq κ]

/-- A member as something to drop classes from. -/
def target : ι ⊕ κ → InvalidationTarget (Holdings α κ)
  | .inl i => fun cls h =>
      let (dropped, outcome) := (h.caches i).invalidateClass h.metrics cls
      (dropped, { h with toCachePool := h.put i outcome })
  | .inr k => fun cls h =>
      let (dropped, bridge) := (h.bridges k).invalidate cls
      (dropped, { h with bridges := Function.update h.bridges k bridge })

/-- What one member lacks all members together lack. -/
theorem add_sum_stored {x : ι ⊕ κ} (hx : x ∈ members)
    (hself : evicted + h'.stored x = h.stored x) (hothers : ∀ y ≠ x, h'.stored y = h.stored y) :
    evicted + ∑ y ∈ members, h'.stored y = ∑ y ∈ members, h.stored y := by
  rw [← Finset.add_sum_erase _ h.stored hx, ← Finset.add_sum_erase _ h'.stored hx,
    ← Nat.add_assoc, hself]
  congr 1
  exact Finset.sum_congr rfl fun y hy => hothers y (Finset.ne_of_mem_erase hy)

/-- Dropping a class from a cache. -/
theorem drops_cache {i : ι} (hi : .inl i ∈ members) (cls : ResourceClass) (h : Holdings α κ) :
    Drops members {(.inl i, cls)} h (target (.inl i) cls h).1 (target (.inl i) cls h).2 := by
  have hself : (target (.inl i) cls h).2.caches i =
      ((h.caches i).invalidateClass h.metrics cls).2.1 := h.toCachePool.caches_put_self i _
  have hothers (j : ι) (hne : j ≠ i) : (target (.inl i) cls h).2.caches j = h.caches j :=
    h.toCachePool.caches_put_of_ne hne _
  have hslots (key : CacheKey) :
      ((target (.inl i) cls h).2.caches i).slots[key]? =
        (h.caches i).slots[key]?.filter fun _ => key.cls != cls := by
    rw [hself]
    exact (h.caches i).slots_retain h.metrics _ key
  refine {
    settings_eq := fun j => ?_
    slots_gone := fun j key hgone => ?_
    slots_kept := fun j key hkept => ?_
    bridges_gone := fun k hgone => ?_
    bridges_kept := fun _ _ => rfl
    evicted_add := add_sum_stored hi ?_ ?_ }
  · by_cases heq : j = i
    · subst heq
      rw [hself, AccessCache.settings_invalidateClass]
    · rw [hothers j heq]
  · obtain ⟨hmember, hcls⟩ := Prod.mk.inj (Set.mem_singleton_iff.mp hgone)
    obtain rfl := Sum.inl.inj hmember
    simp [hslots, hcls]
  · by_cases heq : j = i
    · subst heq
      have hne : key.cls ≠ cls := fun hcls => hkept (by rw [hcls, Set.mem_singleton_iff])
      rw [hslots]
      cases (h.caches j).slots[key]? <;> simp [hne]
    · rw [hothers j heq]
  · cases Set.mem_singleton_iff.mp hgone
  · rw [stored, hself, Nat.add_comm]
    exact (h.caches i).entryCount_retain h.metrics _
  · rintro (j | k) hne
    · rw [stored, hothers j fun heq => hne (congrArg Sum.inl heq), stored]
    · rfl

/-- Dropping a class from a bridge. -/
theorem drops_bridge {k : κ} (hk : .inr k ∈ members) (cls : ResourceClass) (h : Holdings α κ) :
    Drops members {(.inr k, cls)} h (target (.inr k) cls h).1 (target (.inr k) cls h).2 := by
  have hself : (target (.inr k) cls h).2.bridges k = ((h.bridges k).invalidate cls).2 :=
    Function.update_self ..
  have hothers (j : κ) (hne : j ≠ k) : (target (.inr k) cls h).2.bridges j = h.bridges j :=
    Function.update_of_ne hne ..
  refine {
    settings_eq := fun _ => rfl
    slots_gone := fun i key hgone => ?_
    slots_kept := fun _ _ _ => rfl
    bridges_gone := fun j hgone => ?_
    bridges_kept := fun j hkept => ?_
    evicted_add := add_sum_stored hk ?_ ?_ }
  · cases Set.mem_singleton_iff.mp hgone
  · obtain ⟨hmember, hcls⟩ := Prod.mk.inj (Set.mem_singleton_iff.mp hgone)
    obtain rfl := Sum.inr.inj hmember
    rw [hself, Bridge.invalidate, if_pos hcls.symm]
    exact ⟨rfl, rfl⟩
  · by_cases heq : j = k
    · subst heq
      have hne : cls ≠ .protocolMetadata := fun hcls => hkept (by rw [hcls, Set.mem_singleton_iff])
      rw [hself, Bridge.invalidate, if_neg hne]
    · exact hothers j heq
  · rw [stored, hself]
    change ((h.bridges k).invalidate cls).1 + _ = (h.bridges k).views.size
    rw [Bridge.invalidate]
    split
    · exact Nat.add_zero _
    · exact Nat.zero_add _
  · rintro (i | j) hne
    · rfl
    · rw [stored, hothers j fun heq => hne (congrArg Sum.inr heq), stored]

theorem drops_target {x : ι ⊕ κ} (hx : x ∈ members) (cls : ResourceClass) (h : Holdings α κ) :
    Drops members {(x, cls)} h (target x cls h).1 (target x cls h).2 := by
  cases x with
  | inl i => exact drops_cache hx cls h
  | inr k => exact drops_bridge hx cls h

/-- All classes are dropped from all that is registered. -/
theorem drops_dropClasses (registered : List (ι ⊕ κ)) (classes : List ResourceClass)
    (h : Holdings α κ) :
    let outcome := InvalidationTarget.dropClasses (registered.map target) classes h
    Drops registered.toFinset {dropped | dropped.1 ∈ registered ∧ dropped.2 ∈ classes} h
      outcome.1 outcome.2 := by
  have hclass (cls : ResourceClass) (h : Holdings α κ) :
      let outcome := InvalidationTarget.dropClass (registered.map target) cls h
      Drops registered.toFinset {dropped | dropped.1 ∈ registered ∧ dropped.2 = cls} h
        outcome.1 outcome.2 := by
    have hgone : {dropped : (ι ⊕ κ) × ResourceClass |
          dropped.1 ∈ registered ∧ dropped.2 = cls} =
        {dropped | ∃ x ∈ registered, dropped ∈ ({(x, cls)} : Set ((ι ⊕ κ) × ResourceClass))} := by
      ext ⟨x, other⟩
      simp [-Sum.exists]
    simp only [InvalidationTarget.dropClass, List.foldl_map]
    rw [hgone]
    exact drops_foldl (fun x hx h => drops_target (List.mem_toFinset.mpr hx) cls h) h
  have hgone : {dropped : (ι ⊕ κ) × ResourceClass |
        dropped.1 ∈ registered ∧ dropped.2 ∈ classes} =
      {dropped | ∃ cls ∈ classes, dropped ∈
        {dropped : (ι ⊕ κ) × ResourceClass | dropped.1 ∈ registered ∧ dropped.2 = cls}} := by
    ext ⟨x, cls⟩
    simp [and_comm]
  rw [hgone]
  exact drops_foldl (fun cls _ h => hclass cls h) h

/-! ## Announcements -/

/-- What an announcement did to everything within its reach, and what its receipt says of it. -/
structure Announced (rules : InvalidationRules) (registered : List (ι ⊕ κ))
    (event : InvalidationEvent) (h : Holdings α κ) (g : Gate) (receipt : AnnounceReceipt)
    (h' : Holdings α κ) (g' : Gate) : Prop where
  settings_eq (i : ι) : (h'.caches i).settings = (h.caches i).settings
  slots_gone (i : ι) (key : CacheKey) :
    .inl i ∈ registered ∧ key.cls ∈ rules.classesFor event.table →
      (h'.caches i).slots[key]? = none
  slots_kept (i : ι) (key : CacheKey) :
    ¬ (.inl i ∈ registered ∧ key.cls ∈ rules.classesFor event.table) →
      (h'.caches i).slots[key]? = (h.caches i).slots[key]?
  bridges_gone (k : κ) :
    .inr k ∈ registered ∧ .protocolMetadata ∈ rules.classesFor event.table →
      (h'.bridges k).catalog = none ∧ (h'.bridges k).views = ∅
  bridges_kept (k : κ) :
    ¬ (.inr k ∈ registered ∧ .protocolMetadata ∈ rules.classesFor event.table) →
      h'.bridges k = h.bridges k
  /-- Each member counts once, however often it is registered. -/
  evicted_add :
    receipt.evicted + ∑ x ∈ registered.toFinset, h'.stored x =
      ∑ x ∈ registered.toFinset, h.stored x
  classes_eq : ∃ classes : List ResourceClass,
    receipt.classes = classes.map ResourceClass.tag
    ∧ (∀ cls, cls ∈ classes ↔ cls ∈ rules.classesFor event.table)
    ∧ classes.Pairwise fun a b => compare a b = .lt
  nodup_classes : receipt.classes.Nodup
  rowCount_mem : (ResourceClass.rowCount event.table).tag ∈ receipt.classes
  /-- Each affected host has used up one number, and the receipt has this number. -/
  lane_eq (host : HostId) :
    g'.lane host =
      if host ∈ event.affectedHosts then
        { g.lane host with lastIssued := g.lastIssued host + 1 }
      else g.lane host
  hostSequences_eq (host : HostId) :
    receipt.hostSequences[host]? =
      if host ∈ event.affectedHosts then some (g'.lastIssued host) else none
  owner?_eq (host : HostId) (number : UInt64) : g'.owner? host number = g.owner? host number
  connections_eq : g'.connections = g.connections

/-- An announcement that drops the classes of its table has done all an announcement does. What
is dropped from may be a larger state, of which `read` says what it holds. -/
theorem announced_of_drops {σ : Type} (read : σ → Holdings α κ) {rules : InvalidationRules}
    {registered : List (ι ⊕ κ)} (targets : List (InvalidationTarget σ))
    (event : InvalidationEvent) (state : σ) (g : Gate)
    (hdrops :
      let outcome :=
        InvalidationTarget.dropClasses targets (rules.classesFor event.table).toList state
      Drops registered.toFinset
        {dropped | dropped.1 ∈ registered ∧ dropped.2 ∈ (rules.classesFor event.table).toList}
        (read state) outcome.1 (read outcome.2)) :
    let (receipt, state', g') := announceTo rules targets event state g
    Announced rules registered event (read state) g receipt (read state') g' := by
  simp only [ExtTreeSet.mem_toList] at hdrops
  have hnodup := nodup_toList_set event.affectedHosts
  have hmem (cls : ResourceClass) :
      cls ∈ (rules.classesFor event.table).toList ↔ cls ∈ rules.classesFor event.table :=
    ExtTreeSet.mem_toList
  refine {
    settings_eq := hdrops.settings_eq
    slots_gone := hdrops.slots_gone
    slots_kept := hdrops.slots_kept
    bridges_gone := hdrops.bridges_gone
    bridges_kept := hdrops.bridges_kept
    evicted_add := hdrops.evicted_add
    classes_eq := ⟨_, rfl, hmem, ExtTreeSet.ordered_toList⟩
    nodup_classes := ?_
    rowCount_mem := ?_
    lane_eq := fun host => ?_
    hostSequences_eq := fun host => ?_
    owner?_eq := g.owner?_advanceAll hnodup
    connections_eq := ?_ }
  · exact (nodup_toList_set _).map ResourceClass.tag_injective
  · exact List.mem_map_of_mem ((hmem _).mpr ExtTreeSet.mem_insert_self)
  · refine (g.lane_advanceAll hnodup host).trans ?_
    simp only [ExtTreeSet.mem_toList]
  · refine (SyncWorld.hostSequences_announceTo ..).trans ?_
    split
    · next haffected =>
      refine congrArg some (Eq.symm ?_)
      refine (g.lastIssued_advanceAll hnodup host).trans ?_
      rw [if_pos (ExtTreeSet.mem_toList.mpr haffected)]
    · rfl
  · rw [g.advanceAll_snd]

/-- An announcement drops from what is registered exactly what depends on the table. -/
theorem announced_announceTo (rules : InvalidationRules) (registered : List (ι ⊕ κ))
    (event : InvalidationEvent) (h : Holdings α κ) (g : Gate) :
    let (receipt, h', g') := announceTo rules (registered.map target) event h g
    Announced rules registered event h g receipt h' g' := by
  have hdrops := drops_dropClasses registered (rules.classesFor event.table).toList h
  exact announced_of_drops id (registered.map target) event h g hdrops

/-- A cache with entries of two classes, and a bridge. -/
def oneEach : Holdings (fun _ : Unit => Nat) Unit where
  caches _ :=
    { name := "ids"
      slots := (∅ : ExtTreeMap CacheKey (CacheSlot Nat))
        |>.insert ⟨.identity, "ops"⟩ { entry := some (.store 1 ⟨0⟩ (.ofSeconds 9)) }
        |>.insert ⟨.hostTopology, "ops"⟩ { entry := some (.store 2 ⟨0⟩ (.ofSeconds 9)) } }
  metrics := {}
  bridges _ := {}

/-- The cache is registered twice, and the one entry that depends on the table counts once. -/
example :
    (announceTo .builtin ([.inl (), .inr (), .inl ()].map target)
      (({ table := "accounts" } : InvalidationEvent).withHosts [⟨7⟩]) oneEach {}).1 =
      { classes := ["identity", "tenant-hierarchy", "row-count:accounts"]
        evicted := 1
        hostSequences := (∅ : ExtTreeMap HostId UInt64).insert ⟨7⟩ 1 } := by
  decide +kernel

end Holdings

/-! ## The announcements of a master -/

section

variable {σ τ : Type} {read : σ → τ}

/-- A target does to what is read off a state what another does to the state. -/
def InvalidationTarget.ReadsAs (read : σ → τ) (target : InvalidationTarget σ)
    (target' : InvalidationTarget τ) : Prop :=
  ∀ cls state, target' cls (read state) = (target cls state).map id read

theorem foldl_map_read {β γ : Type} {drop : β → σ → Nat × σ} {drop' : γ → τ → Nat × τ}
    {items : List β} {items' : List γ}
    (hsame : List.Forall₂ (fun item item' => ∀ state,
      drop' item' (read state) = (drop item state).map id read) items items')
    (start : Nat × σ) :
    items'.foldl (fun (evicted, state) item =>
        let (dropped, state) := drop' item state
        (evicted + dropped, state)) (start.map id read) =
      (items.foldl (fun (evicted, state) item =>
        let (dropped, state) := drop item state
        (evicted + dropped, state)) start).map id read := by
  induction hsame generalizing start with
  | nil => rfl
  | @cons item item' items items' hitem _ ih =>
      rw [List.foldl_cons, List.foldl_cons, ← ih]
      simp only [Prod.map, hitem, id]

/-- Classes dropped from targets that read as others are dropped from the others too. -/
theorem dropClasses_map_read {targets : List (InvalidationTarget σ)}
    {targets' : List (InvalidationTarget τ)}
    (hsame : List.Forall₂ (InvalidationTarget.ReadsAs read) targets targets')
    (classes : List ResourceClass) (state : σ) :
    InvalidationTarget.dropClasses targets' classes (read state) =
      (InvalidationTarget.dropClasses targets classes state).map id read := by
  have hclass (cls : ResourceClass) (state : σ) :
      InvalidationTarget.dropClass targets' cls (read state) =
        (InvalidationTarget.dropClass targets cls state).map id read :=
    foldl_map_read (hsame.imp fun _ _ h => h cls) (0, state)
  exact foldl_map_read (List.forall₂_same.mpr fun cls _ => hclass cls) (0, state)

end

inductive MasterCache
  | identities
  | scopes
  | rowCounts
deriving DecidableEq

/-- What a cache of a master keeps. -/
def MasterCache.Value : MasterCache → Type
  | identities => Identity
  | scopes => AccessScope
  | rowCounts => UInt64

namespace Master

/-- What the announcements of a master reach. -/
def holdings (master : Master) : Holdings MasterCache.Value Unit where
  caches
    | .identities => master.resolver.identities
    | .scopes => master.resolver.scopes
    | .rowCounts => master.rowCounts
  metrics := master.metrics
  bridges _ := master.bridge

def members : List (MasterCache ⊕ Unit) :=
  [.inl .identities, .inl .scopes, .inl .rowCounts, .inr ()]

/-- The targets of a master are its three caches and its bridge. -/
theorem targets_readAs :
    List.Forall₂ (InvalidationTarget.ReadsAs holdings) targets (members.map Holdings.target) := by
  refine .cons ?_ (.cons ?_ (.cons ?_ (.cons ?_ .nil)))
  · exact fun cls master => Prod.ext rfl (Holdings.ext (by ext (_ | _ | _) <;> rfl) rfl rfl)
  · exact fun cls master => Prod.ext rfl (Holdings.ext (by ext (_ | _ | _) <;> rfl) rfl rfl)
  · exact fun cls master => Prod.ext rfl (Holdings.ext (by ext (_ | _ | _) <;> rfl) rfl rfl)
  · exact fun cls master => Prod.ext rfl (Holdings.ext rfl rfl rfl)

/-- An announcement drops from a master exactly what depends on the table. -/
theorem announced_announce (master : Master) (event : InvalidationEvent) :
    Holdings.Announced master.invalidation members event master.holdings master.gate
      (master.announce event).1 (master.announce event).2.holdings
      (master.announce event).2.gate := by
  have hdrops := Holdings.drops_dropClasses members
    (master.invalidation.classesFor event.table).toList master.holdings
  rw [dropClasses_map_read targets_readAs] at hdrops
  have hannounced := Holdings.announced_of_drops holdings targets event master master.gate hdrops
  -- Its metrics count the announcement as well, of which `Announced` says nothing.
  exact { hannounced with }

end Master

end ControlPlane
