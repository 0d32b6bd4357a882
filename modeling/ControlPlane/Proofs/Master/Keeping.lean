/-
# What a master keeps

A master keeps identities, scopes, row counts and what its bridge has read. A property of
all these is carried through every operation here: an operation keeps nothing but what was
kept before and what it derives from the store, so it is enough that the derived values have
the property. Which property it is differs from use to use, and is no concern of this module.
-/

import ControlPlane.Proofs.Cache.Entries
import ControlPlane.Proofs.Master.Uncached
import ControlPlane.Proofs.Protocol.Lookup

namespace ControlPlane

/-- A property of everything that a master keeps. -/
structure Kept where
  identity : CacheKey → Identity → Prop
  scope : CacheKey → AccessScope → Prop
  rowCount : CacheKey → UInt64 → Prop
  bridge : Bridge → Prop

/-- The same property once some classes were dropped: nothing of them is kept. -/
def Kept.dropping (kept : Kept) (gone : ResourceClass → Prop) : Kept where
  identity key value := ¬ gone key.cls ∧ kept.identity key value
  scope key value := ¬ gone key.cls ∧ kept.scope key value
  rowCount key value := ¬ gone key.cls ∧ kept.rowCount key value
  bridge bridge :=
    (gone .protocolMetadata → bridge.catalog = none ∧ bridge.views = ∅)
      ∧ (¬ gone .protocolMetadata → kept.bridge bridge)

/-- The scopes that may be computed for an identity on a table have a property. -/
def Kept.TakesScopes (kept : Kept) (store : Store) (rules : TableRules) (identity : Identity)
    (table : String) : Prop :=
  ∀ rule key scope, rules.get? table = some rule → rule.admits identity = true →
    rule.isScoped = true → identity.scopeKey? rule.scopeOptions = some key →
    store.computeScope identity rule.scopeOptions = .ok scope → kept.scope key scope

/-- What a session derives from a store has a property, provided that the identity it goes by
has it. -/
structure Kept.Absorbs (kept : Kept) (store : Store) : Prop where
  identity (username : String) (identity : Identity) :
    store.resolveIdentity username = .ok identity → kept.identity ⟨.identity, username⟩ identity
  scope (username : String) (identity : Identity) (options : ScopeOptions) (key : CacheKey)
      (scope : AccessScope) :
    kept.identity ⟨.identity, username⟩ identity → identity.scopeKey? options = some key →
      store.computeScope identity options = .ok scope → kept.scope key scope
  rowCount (s : Snapshot) (table : String) (query : QueryScope) :
    store.read = .ok s → kept.rowCount (rowCountKey table query) (s.rowCount table query)
  view (bridge : Bridge) (token : String) :
    kept.bridge bridge → kept.bridge (bridge.runView store.registry token .find).2
  catalog (bridge : Bridge) :
    kept.bridge bridge → kept.bridge (bridge.runCatalog store.registry .find).2

theorem Kept.Absorbs.takesScopes {kept : Kept} {store : Store} (h : kept.Absorbs store)
    {username : String} {identity : Identity} (hkept : kept.identity ⟨.identity, username⟩ identity)
    {rules : TableRules} {table : String} : kept.TakesScopes store rules identity table :=
  fun rule key scope _ _ _ hkey => h.scope username identity rule.scopeOptions key scope hkept hkey

/-- The property that everything has. -/
def Kept.anything : Kept where
  identity _ _ := True
  scope _ _ := True
  rowCount _ _ := True
  bridge _ := True

theorem Kept.absorbs_anything (store : Store) : Kept.anything.Absorbs store where
  identity _ _ _ := trivial
  scope _ _ _ _ _ _ _ _ := trivial
  rowCount _ _ _ _ := trivial
  view _ _ _ := trivial
  catalog _ _ := trivial

namespace Master

/-- Everything that a master keeps has a property, and the master is still set up as `origin`
is. -/
structure Keeps (kept : Kept) (master origin : Master) : Prop where
  rules_eq : master.rules = origin.rules
  invalidation_eq : master.invalidation = origin.invalidation
  settings_eq : master.resolver.scopes.settings = origin.resolver.scopes.settings
  identities : master.resolver.identities.Holds kept.identity
  scopes : master.resolver.scopes.Holds kept.scope
  rowCounts : master.rowCounts.Holds kept.rowCount
  bridge : kept.bridge master.bridge

/-- A master that keeps nothing yet. -/
def IsCold (master : Master) : Prop :=
  master.resolver.identities.slots = ∅ ∧ master.resolver.scopes.slots = ∅
    ∧ master.rowCounts.slots = ∅

variable {kept : Kept} {master origin : Master} {identity : Identity}

/-- What keeps nothing keeps nothing without a given property. -/
theorem keeps_of_isCold (hcold : master.IsCold) (hbridge : kept.bridge master.bridge) :
    master.Keeps kept master where
  rules_eq := rfl
  invalidation_eq := rfl
  settings_eq := rfl
  identities := AccessCache.holds_of_slots_eq_empty hcold.1 _
  scopes := AccessCache.holds_of_slots_eq_empty hcold.2.1 _
  rowCounts := AccessCache.holds_of_slots_eq_empty hcold.2.2 _
  bridge := hbridge

theorem keeps_anything (master : Master) : master.Keeps .anything master where
  rules_eq := rfl
  invalidation_eq := rfl
  settings_eq := rfl
  identities _ _ _ := trivial
  scopes _ _ _ := trivial
  rowCounts _ _ _ := trivial
  bridge := trivial

theorem admittedRule_eq_ok_iff {table : String} {rule : TableRule} :
    master.admittedRule identity table = .ok rule ↔
      master.rules.get? table = some rule ∧ rule.admits identity = true := by
  unfold admittedRule
  cases master.rules.get? table with
  | none => simp
  | some other =>
      by_cases hadmits : other.admits identity = true
      · simp only [hadmits, if_true, Except.ok.injEq, Option.some.injEq]
        exact ⟨fun heq => ⟨heq, heq ▸ hadmits⟩, fun h => h.1⟩
      · simp only [hadmits, if_false, reduceCtorEq, Option.some.injEq, false_iff, not_and]
        rintro rfl
        exact hadmits

namespace Keeps

/-- A property can be replaced by a weaker one. -/
theorem mono {kept' : Kept} (h : master.Keeps kept origin)
    (hidentity : ∀ key value, kept.identity key value → kept'.identity key value)
    (hscope : ∀ key value, kept.scope key value → kept'.scope key value)
    (hrowCount : ∀ key value, kept.rowCount key value → kept'.rowCount key value)
    (hbridge : kept.bridge master.bridge → kept'.bridge master.bridge) :
    master.Keeps kept' origin where
  rules_eq := h.rules_eq
  invalidation_eq := h.invalidation_eq
  settings_eq := h.settings_eq
  identities := h.identities.mono hidentity
  scopes := h.scopes.mono hscope
  rowCounts := h.rowCounts.mono hrowCount
  bridge := hbridge h.bridge

/-- What is kept besides row counts does not depend on what is said of them. -/
theorem monoRowCounts {rowCount' : CacheKey → UInt64 → Prop} (h : master.Keeps kept origin)
    (himp : ∀ key rows, kept.rowCount key rows → rowCount' key rows) :
    master.Keeps { kept with rowCount := rowCount' } origin :=
  { h with rowCounts := h.rowCounts.mono himp }

/-- What is kept besides scopes does not depend on what is said of them. -/
theorem forgetScopes (h : master.Keeps kept origin) :
    master.Keeps { kept with scope := fun _ _ => True } origin :=
  { h with scopes := fun _ _ _ => trivial }

/-! ## Operations keep a property -/

theorem resolveIdentity (h : master.Keeps kept origin) (env : Surroundings)
    (username : String)
    (hnew : ∀ identity, env.store.resolveIdentity username = .ok identity →
      kept.identity ⟨.identity, username⟩ identity) :
    (master.resolveIdentity env username).2.Keeps kept origin :=
  { h with
    identities := by
      simp only [Master.resolveIdentity, ScopeResolver.identity]
      exact h.identities.getOrCompute fun _ => hnew }

/-- What an identity request gives has the property of what is kept. -/
theorem of_resolveIdentity (h : master.Keeps kept origin) {env : Surroundings}
    {username : String}
    (hnew : ∀ identity, env.store.resolveIdentity username = .ok identity →
      kept.identity ⟨.identity, username⟩ identity)
    (hidentity : (master.resolveIdentity env username).1 = .ok identity) :
    kept.identity ⟨.identity, username⟩ identity := by
  simp only [Master.resolveIdentity, ScopeResolver.identity] at hidentity
  exact h.identities.of_getOrCompute (fun _ => hnew) hidentity

theorem authorize (h : master.Keeps kept origin) (env : Surroundings)
    (table : String)
    (hnew : kept.TakesScopes env.store origin.rules identity table) :
    (master.authorize env identity table).2.Keeps kept origin := by
  unfold Master.authorize
  split
  · exact h
  · next rule hadmitted =>
      obtain ⟨hrule, hadmits⟩ := admittedRule_eq_ok_iff.mp hadmitted
      rw [h.rules_eq] at hrule
      split
      · next hscoped =>
          unfold ScopeResolver.accessScope
          cases hkey : identity.scopeKey? rule.scopeOptions with
          | none => exact { h with }
          | some key =>
              exact { h with
                settings_eq := (AccessCache.settings_getOrCompute ..).trans h.settings_eq
                scopes := h.scopes.getOrCompute fun _ scope =>
                  hnew rule key scope hrule hadmits hscoped hkey }
      · exact h

theorem scopedQuery (h : master.Keeps kept origin) (env : Surroundings)
    (table : String)
    (hnew : kept.TakesScopes env.store origin.rules identity table) :
    (master.scopedQuery env identity table).2.Keeps kept origin := by
  have hauthorize := h.authorize env table hnew
  unfold Master.scopedQuery
  split
  · next hrun => rwa [hrun] at hauthorize
  · next hrun => rwa [hrun] at hauthorize

theorem rowCount (h : master.Keeps kept origin) (env : Surroundings)
    (table : String)
    (hnew : kept.TakesScopes env.store origin.rules identity table)
    (hcount : ∀ s query, env.store.read = .ok s →
      kept.rowCount (rowCountKey table query) (s.rowCount table query)) :
    (master.rowCount env identity table).2.Keeps kept origin := by
  have hquery := h.scopedQuery env table hnew
  unfold Master.rowCount
  split
  · next hrun => rwa [hrun] at hquery
  · next query _ hrun =>
      rw [hrun] at hquery
      refine { hquery with rowCounts := hquery.rowCounts.getOrCompute fun _ rows hrows => ?_ }
      obtain ⟨s, hread, rfl⟩ : ∃ s, env.store.read = .ok s ∧ s.rowCount table query = rows := by
        cases hread : env.store.read with
        | error fault => rw [hread] at hrows; cases hrows
        | ok s => rw [hread] at hrows; exact ⟨s, rfl, Except.ok.inj hrows⟩
      exact hcount s query hread

theorem ask {α : Type} (h : master.Keeps kept origin) (env : Surroundings)
    (query : VersionQuery α)
    (hview : kept.bridge master.bridge →
      kept.bridge (master.bridge.runView env.store.registry query.version .find).2) :
    (master.ask env query).2.Keeps kept origin :=
  { h with bridge := hview h.bridge }

theorem tableName (h : master.Keeps kept origin) (env : Surroundings)
    (canonical : Int32)
    (hcatalog : kept.bridge master.bridge →
      kept.bridge (master.bridge.runCatalog env.store.registry .find).2) :
    (master.tableName env canonical).2.Keeps kept origin := by
  have hbridge := hcatalog h.bridge
  refine { h with bridge := ?_ }
  simp only [Master.tableName, Bridge.tableName]
  split
  · next hrun => rwa [hrun] at hbridge
  · next hrun => rwa [hrun] at hbridge

theorem purge (h : master.Keeps kept origin) (now : Tick) :
    (master.purge now).2.Keeps kept origin :=
  { h with
    settings_eq := (AccessCache.settings_purge ..).trans h.settings_eq
    identities := h.identities.purge _ _
    scopes := h.scopes.purge _ _
    rowCounts := h.rowCounts.purge _ _ }

/-- What a session does with its identity starts from an identity that is kept. -/
theorem withIdentity {α : Type} (h : master.Keeps kept origin) (env : Surroundings)
    (habsorbs : kept.Absorbs env.store) (session : Session)
    {next : Master → Identity → Except Fault α × Master}
    (hnext : ∀ (master' : Master) identity, master'.Keeps kept origin →
      kept.identity ⟨.identity, session.username⟩ identity →
      (next master' identity).2.Keeps kept origin) :
    (session.withIdentity env master next).2.Keeps kept origin := by
  have hresolved := h.resolveIdentity env session.username (habsorbs.identity session.username)
  unfold Session.withIdentity
  split
  · next hrun =>
      rw [Session.identity] at hrun
      rwa [hrun] at hresolved
  · next identity _ hrun =>
      rw [Session.identity] at hrun
      have hkept : kept.identity ⟨.identity, session.username⟩ identity :=
        h.of_resolveIdentity (habsorbs.identity session.username) (by rw [hrun])
      rw [hrun] at hresolved
      exact hnext _ identity hresolved hkept

/-- A request of a session keeps nothing but what it derives from the store. -/
theorem answer (h : master.Keeps kept origin) (env : Surroundings)
    (habsorbs : kept.Absorbs env.store) (session : Session) (request : SessionRequest) :
    (session.answer env request master).2.Keeps kept origin := by
  have hquery (master' : Master) (h' : master'.Keeps kept origin) (table : String) :
      (session.scopedQuery env table master').2.Keeps kept origin := by
    apply h'.withIdentity env habsorbs session
    intro _ identity hkeeps hkept
    exact hkeeps.scopedQuery env table (habsorbs.takesScopes hkept)
  cases request with
  | identity => exact h.resolveIdentity env session.username (habsorbs.identity session.username)
  | authorize table =>
      change (session.authorize env table master).2.Keeps kept origin
      apply h.withIdentity env habsorbs session
      intro master' identity hkeeps hkept
      exact hkeeps.authorize env table (habsorbs.takesScopes hkept)
  | scopedQuery table => exact hquery master h table
  | rowCount table =>
      change (session.rowCount env table master).2.Keeps kept origin
      apply h.withIdentity env habsorbs session
      intro master' identity hkeeps hkept
      apply hkeeps.rowCount env table (habsorbs.takesScopes hkept)
      intro s query hread
      exact habsorbs.rowCount s table query hread
  | scopedQueryAt ordinal =>
      have hasked := h.ask env (.requireTable session.version ordinal)
        (habsorbs.view master.bridge _)
      change (session.scopedQueryAt env ordinal master).2.Keeps kept origin
      unfold Session.scopedQueryAt
      rcases hask : master.ask env (.requireTable session.version ordinal) with
        ⟨fault | canonical, master₁⟩
      · rwa [hask] at hasked
      rw [hask] at hasked
      have hnamed := hasked.tableName env canonical (habsorbs.catalog master₁.bridge)
      simp only
      rcases hname : master₁.tableName env canonical with ⟨fault | _ | table, master₂⟩
      · rwa [hname] at hnamed
      · rwa [hname] at hnamed
      rw [hname] at hnamed
      have hqueried := hquery master₂ hnamed table
      simp only
      rcases hrun : session.scopedQuery env table master₂ with ⟨fault | query, master₃⟩
      · rwa [hrun] at hqueried
      · rwa [hrun] at hqueried

/-! ## Announcements -/

/-- Dropping a class drops it from the three caches and from the bridge. -/
theorem dropClass (h : master.Keeps kept origin) (cls : ResourceClass) :
    (InvalidationTarget.dropClass targets cls master).2.Keeps (kept.dropping (cls = ·))
      origin := by
  have hbridge : (kept.dropping (cls = ·)).bridge (master.bridge.invalidate cls).2 := by
    unfold Bridge.invalidate
    split
    · next hcls => exact ⟨fun _ => ⟨rfl, rfl⟩, fun hkept => absurd hcls hkept⟩
    · next hcls => exact ⟨fun hgone => absurd hgone hcls, fun _ => h.bridge⟩
  have hne (key : CacheKey) (hcls : key.cls ≠ cls) : ¬ cls = key.cls := fun heq => hcls heq.symm
  simp only [InvalidationTarget.dropClass, targets, List.foldl_cons, List.foldl_nil]
  exact {
    rules_eq := h.rules_eq
    invalidation_eq := h.invalidation_eq
    settings_eq := (AccessCache.settings_invalidateClass ..).trans h.settings_eq
    identities := (h.identities.invalidateClass _ cls).mono fun key _ hleft =>
      ⟨hne key hleft.1, hleft.2⟩
    scopes := (h.scopes.invalidateClass _ cls).mono fun key _ hleft => ⟨hne key hleft.1, hleft.2⟩
    rowCounts := (h.rowCounts.invalidateClass _ cls).mono fun key _ hleft =>
      ⟨hne key hleft.1, hleft.2⟩
    bridge := hbridge }

theorem dropClasses_snd {σ : Type} (targets : List (InvalidationTarget σ))
    (classes : List ResourceClass) (state : σ) :
    (InvalidationTarget.dropClasses targets classes state).2 =
      classes.foldl (fun state cls => (InvalidationTarget.dropClass targets cls state).2)
        state := by
  unfold InvalidationTarget.dropClasses
  rw [← List.foldl_hom Prod.snd]
  exact fun _ _ => rfl

/-- Dropping classes one after the other drops them all. -/
theorem dropClasses (h : master.Keeps kept origin) (classes : List ResourceClass) :
    (InvalidationTarget.dropClasses targets classes master).2.Keeps
      (kept.dropping (· ∈ classes)) origin := by
  rw [dropClasses_snd]
  induction classes generalizing master kept with
  | nil =>
      refine h.mono (fun _ _ hkept => ⟨List.not_mem_nil, hkept⟩)
        (fun _ _ hkept => ⟨List.not_mem_nil, hkept⟩) (fun _ _ hkept => ⟨List.not_mem_nil, hkept⟩)
        fun hkept => ⟨fun hgone => absurd hgone List.not_mem_nil, fun _ => hkept⟩
  | cons cls classes ih =>
      have hnotMem (other : ResourceClass) (hother : other ∉ classes) (hne : ¬ cls = other) :
          other ∉ cls :: classes := by
        rw [List.mem_cons]
        rintro (heq | hmem)
        · exact hne heq.symm
        · exact hother hmem
      refine (ih (h.dropClass cls)).mono
        (fun key _ ⟨hlater, hnow, hkept⟩ => ⟨hnotMem key.cls hlater hnow, hkept⟩)
        (fun key _ ⟨hlater, hnow, hkept⟩ => ⟨hnotMem key.cls hlater hnow, hkept⟩)
        (fun key _ ⟨hlater, hnow, hkept⟩ => ⟨hnotMem key.cls hlater hnow, hkept⟩) ?_
      rintro ⟨hlater, hnow⟩
      by_cases hmem : .protocolMetadata ∈ classes
      · exact ⟨fun _ => hlater hmem, fun hkept => absurd (List.mem_cons_of_mem cls hmem) hkept⟩
      · obtain ⟨hgone, hkept⟩ := hnow hmem
        by_cases hcls : cls = .protocolMetadata
        · exact ⟨fun _ => hgone hcls,
            fun hnot => absurd (List.mem_cons.mpr (.inl hcls.symm)) hnot⟩
        · exact ⟨fun hcons => absurd hcons (hnotMem _ hmem hcls), fun _ => hkept hcls⟩

/-- An announcement leaves nothing of the classes that depend on the table. -/
theorem announce (h : master.Keeps kept origin) (event : InvalidationEvent) :
    (master.announce event).2.Keeps
      (kept.dropping (· ∈ origin.invalidation.classesFor event.table)) origin := by
  have hdropped := h.dropClasses (master.invalidation.classesFor event.table).toList
  simp only [Std.ExtTreeSet.mem_toList] at hdropped
  rw [h.invalidation_eq] at hdropped
  simp only [Master.announce, announceTo, h.invalidation_eq]
  exact { hdropped with }

end Keeps

end Master

end ControlPlane
