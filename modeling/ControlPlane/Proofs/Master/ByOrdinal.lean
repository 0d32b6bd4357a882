/-
# Queries by ordinal

A session that asks by ordinal is answered in three lookups. The id comes from a view that is kept
for the version, the name from the catalog that is kept beside it, by a search, and the filter from
the rules, by name. Here it is shown that the three speak of one table, whatever happened to the
store, the bridge and the caches before: the catalog that is kept was loaded from one reading of
the registry, and the views that are kept are its views. So a table that was found by ordinal has
a name, and the branch for one without a name is never taken.
-/

import ControlPlane.Proofs.Access.Expansion
import ControlPlane.Proofs.Master.Creation
import ControlPlane.Proofs.Protocol.Ordinals

namespace ControlPlane

/-! ## Bridges -/

namespace Bridge

variable {bridge : Bridge}

/-- Nothing is kept, or a catalog that was loaded from some reading of the registry, and no view
but its own. -/
def IsCoherent (bridge : Bridge) : Prop :=
  bridge.IsEmpty ∨ ∃ registry catalog, Catalog.load registry = .ok catalog ∧ bridge.Holds catalog

namespace IsCoherent

variable (h : bridge.IsCoherent)
include h

theorem lookUp (registry : Registry) (lookup : BridgeLookup) :
    (bridge.lookUp registry lookup).2.IsCoherent := by
  rcases h with hempty | ⟨read, catalog, hload, hholds⟩
  · cases hload : Catalog.load registry with
    | error fault =>
        rw [hempty.lookUp_snd hload]
        exact .inl hempty
    | ok catalog => exact .inr ⟨registry, catalog, hload, hempty.holds_lookUp hload lookup⟩
  · exact .inr ⟨read, catalog, hload, hholds.lookUp_snd registry lookup⟩

theorem runView (registry : Registry) (token : String) :
    (bridge.runView registry token .find).2.IsCoherent :=
  h.lookUp registry (.view token)

theorem runCatalog (registry : Registry) : (bridge.runCatalog registry .find).2.IsCoherent := by
  have hname : (bridge.tableName registry 0).2.IsCoherent := h.lookUp registry (.tableName 0)
  rw [tableName] at hname
  rcases hrun : bridge.runCatalog registry .find with ⟨fault | catalog, bridge'⟩
  · rwa [hrun] at hname
  · rwa [hrun] at hname

theorem invalidate (cls : ResourceClass) : (bridge.invalidate cls).2.IsCoherent := by
  unfold Bridge.invalidate
  split
  · exact .inl isEmpty_reset
  · exact h

/-- A question is answered from one catalog: the one that is kept or, if there is none, the one
that the registry gives now, which is kept afterwards. -/
theorem ask_cases {α : Type} (registry : Registry) (query : VersionQuery α) :
    (∃ fault, bridge.catalog = none ∧ Catalog.load registry = .error fault
        ∧ bridge.ask registry query = (query.on (.error fault), bridge))
    ∨ ∃ read catalog, Catalog.load read = .ok catalog
        ∧ (bridge.catalog = some catalog ∨ bridge.catalog = none ∧ read = registry)
        ∧ (bridge.ask registry query).1 = query.on (.ok catalog)
        ∧ (bridge.ask registry query).2.Holds catalog := by
  have hkeeps : (bridge.ask registry query).2 =
      (bridge.lookUp registry (.view query.version)).2 := rfl
  rcases h with hempty | ⟨read, catalog, hload, hholds⟩
  · have hanswer := (hempty.agrees (Catalog.load registry)).gives.ask_fst query
    cases hload : Catalog.load registry with
    | error fault =>
        rw [hload] at hanswer
        rw [hempty.lookUp_snd hload] at hkeeps
        exact .inl ⟨fault, hempty.catalog_eq, rfl, Prod.ext hanswer hkeeps⟩
    | ok catalog =>
        rw [hload] at hanswer
        exact .inr ⟨registry, catalog, hload, .inr ⟨hempty.catalog_eq, rfl⟩, hanswer,
          hempty.holds_lookUp hload (.view query.version)⟩
  · exact .inr ⟨read, catalog, hload, .inl hholds.catalog_eq,
      (hholds.gives registry).ask_fst query, hholds.lookUp_snd registry (.view query.version)⟩

end IsCoherent

end Bridge

/-! ## Worlds -/

theorem Master.bridge_of_create {config : Config} {rules : TableRules} {master : Master}
    (h : create config rules = .ok master) : master.bridge = {} := by
  simp only [create, bind_eq_ok_iff] at h
  obtain ⟨_, -, extra, -, h⟩ := h
  rw [← Except.ok.inj h]

namespace World

/-- The worlds that setting up a master over a store leads to. Besides the steps of a run, the
bridge may be asked and dropped on its own, and whatever is done with the other parts of the
master on their own is allowed. -/
inductive Arises : World → Prop
  | created {store : Store} {config : Config} {master : Master} (hstore : store.Arises)
      (hmaster : Master.create config store.rules = .ok master) (now : Tick) :
      Arises ⟨store, now, master⟩
  | stepped {w : World} (hbefore : Arises w) (step : WorldStep) : Arises (w.step step)
  | looked {w : World} (hbefore : Arises w) (lookup : BridgeLookup) :
      Arises { w with
        master := { w.master with
          bridge := (w.master.bridge.lookUp w.store.registry lookup).2 } }
  | invalidated {w : World} (hbefore : Arises w) (cls : ResourceClass) :
      Arises { w with
        master := { w.master with bridge := (w.master.bridge.invalidate cls).2 } }
  | aside {w : World} (hbefore : Arises w) (resolver : ScopeResolver)
      (rowCounts : AccessCache UInt64) (gate : Gate) (metrics : Metrics) :
      Arises { w with master := { w.master with resolver, rowCounts, gate, metrics } }

/-- What is kept of the registry is coherent, and nothing is said of anything else. -/
def keptCoherent : Kept :=
  { Kept.anything with bridge := Bridge.IsCoherent }

theorem absorbs_keptCoherent (store : Store) : keptCoherent.Absorbs store where
  identity _ _ _ := trivial
  scope _ _ _ _ _ _ _ _ := trivial
  rowCount _ _ _ _ := trivial
  view _ token h := h.runView store.registry token
  catalog _ h := h.runCatalog store.registry

theorem Arises.isCoherent {w : World} (h : w.Arises) : w.master.bridge.IsCoherent := by
  induction h with
  | created hstore hmaster now =>
      rw [Master.bridge_of_create hmaster]
      exact .inl Bridge.isEmpty_new
  | @stepped w hbefore step ih =>
      have hkeeps : w.master.Keeps keptCoherent w.master :=
        { w.master.keeps_anything with bridge := ih }
      have hnext := hkeeps.step (absorbs_keptCoherent w.store)
        (fun _ hcatalog hviews => .inl ⟨hcatalog, hviews⟩) step
        fun _ _ _ _ _ _ _ _ _ _ _ => trivial
      exact hnext.bridge
  | looked hbefore lookup ih => exact ih.lookUp _ lookup
  | invalidated hbefore cls ih => exact ih.invalidate cls
  | aside hbefore resolver rowCounts gate metrics ih => exact ih

end World

/-! ## Requests that do not blame the program -/

/-- A result that is not an internal error. -/
def Blameless {α : Type} (result : Except Fault α) : Prop :=
  ∀ text, result ≠ .error (.internal text)

namespace Blameless

variable {α β : Type}

theorem ok (value : α) : Blameless (.ok value) := by
  intro text h
  cases h

theorem noAccess : Blameless (.error .noAccess : Except Fault α) := by
  intro text h
  cases h

theorem bind {first : Except Fault α} {next : α → Except Fault β} (hfirst : Blameless first)
    (hnext : ∀ value, Blameless (next value)) : Blameless (first >>= next) := by
  cases first with
  | error fault =>
      intro text h
      cases h
      exact hfirst text rfl
  | ok value => exact hnext value

theorem map {result : Except Fault α} (h : Blameless result) (f : α → β) :
    Blameless (result.map f) := by
  cases result with
  | error fault =>
      intro text hfault
      cases hfault
      exact h text rfl
  | ok value => exact ok (f value)

theorem read (store : Store) : Blameless store.read := by
  unfold Store.read
  split
  · exact ok _
  · intro text h
    cases h

theorem climb (h : Hierarchy) (start : AccountId) (hops : Nat) (current : AccountId)
    (visited : List AccountId) : Blameless (h.climb start hops current visited) := by
  fun_induction h.climb start hops current visited with
  | case6 current visited hroot parent hparent hexists hunmet hops ih =>
      exact ih.bind fun rest => ok (parent :: rest)
  | _ =>
      intro text h
      cases h

theorem expandHosts (store : Store) (assigned : Std.ExtTreeSet HostId) (options : ScopeOptions) :
    Blameless (store.expandHosts assigned options) := by
  unfold Store.expandHosts
  split
  · exact ok ∅
  · exact (read store).bind fun s => ok (s.topology.expand assigned options)

theorem walk (h : Hierarchy) (account : AccountId) : Blameless (h.walk account) := by
  unfold Hierarchy.walk
  exact (climb h account maxChainDepth account [account]).bind fun _ => ok _

theorem computeScope (store : Store) (identity : Identity) (options : ScopeOptions) :
    Blameless (store.computeScope identity options) := by
  unfold Store.computeScope
  split
  · exact ok _
  · exact ((read store).bind fun s => walk s.hierarchy _).bind fun _ => ok _
  · exact (expandHosts store _ options).bind fun _ => ok _

theorem resolveIdentity (store : Store) (username : String) :
    Blameless (store.resolveIdentity username) := by
  apply (read store).bind
  intro s
  split
  · exact noAccess
  · exact ok _
  · exact ok _
  · split
    · exact ok _
    · exact noAccess

theorem parameterize (rule : TableRule) (scope : AccessScope) :
    Blameless (rule.parameterize scope) := by
  unfold TableRule.parameterize
  split
  all_goals
    intro text h
    cases h

/-- What is kept was no error when it was computed. -/
theorem getOrCompute {c : AccessCache α} {m : Metrics} {key : CacheKey} {now : Tick}
    {compute : Metrics → Except Fault α × Metrics} (h : ∀ m, Blameless (compute m).1) :
    Blameless (c.getOrCompute m key now compute).1 := by
  rcases c.getOrCompute_fst m key now compute with ⟨entry, -, hkept⟩ | ⟨m', hcomputed⟩
  · rw [hkept]
    exact ok entry.value
  · rw [hcomputed]
    exact h m'

variable (master : Master) (env : Surroundings) (identity : Identity)

theorem admittedRule (table : String) : Blameless (master.admittedRule identity table) := by
  unfold Master.admittedRule
  split
  · split
    · exact ok _
    · exact noAccess
  · exact noAccess

theorem authorize (table : String) : Blameless (master.authorize env identity table).1 := by
  have hadmitted := admittedRule master identity table
  unfold Master.authorize
  split
  · next fault hfault =>
      rw [hfault] at hadmitted
      intro text h
      cases h
      exact hadmitted text rfl
  · split
    · unfold ScopeResolver.accessScope
      cases identity.scopeKey? _ with
      | none => exact ok _
      | some key => exact getOrCompute fun m => computeScope env.store identity _
    · exact ok _

theorem scopedQuery (table : String) : Blameless (master.scopedQuery env identity table).1 := by
  have hauthorized := authorize master env identity table
  unfold Master.scopedQuery
  split
  · next fault _ hrun =>
      rw [hrun] at hauthorized
      intro text h
      cases h
      exact hauthorized text rfl
  · exact (admittedRule _ identity table).bind fun rule => parameterize rule _

theorem sessionScopedQuery (session : Session) (table : String) :
    Blameless (session.scopedQuery env table master).1 := by
  have hresolved : Blameless (session.identity env master).1 := by
    unfold Session.identity Master.resolveIdentity ScopeResolver.identity
    exact getOrCompute fun _ => resolveIdentity env.store session.username
  unfold Session.scopedQuery Session.withIdentity
  split
  · next fault _ hrun =>
      rw [hrun] at hresolved
      intro text h
      cases h
      exact hresolved text rfl
  · exact scopedQuery _ env _ table

end Blameless

/-! ## Filters and the bridge -/

namespace Master

variable (master : Master) (bridge : Bridge) (env : Surroundings)

/-- The same master with another bridge. -/
def withBridge : Master :=
  { master with bridge }

theorem authorize_withBridge (identity : Identity) (table : String) :
    (master.withBridge bridge).authorize env identity table =
      (master.authorize env identity table).map id (·.withBridge bridge) := by
  have hadmitted : (master.withBridge bridge).admittedRule identity table =
      master.admittedRule identity table := rfl
  unfold authorize
  rw [hadmitted]
  cases master.admittedRule identity table with
  | error fault => rfl
  | ok rule => by_cases hscoped : rule.isScoped = true <;> simp [hscoped, withBridge]

theorem scopedQuery_withBridge (identity : Identity) (table : String) :
    (master.withBridge bridge).scopedQuery env identity table =
      (master.scopedQuery env identity table).map id (·.withBridge bridge) := by
  unfold scopedQuery
  rw [authorize_withBridge]
  rcases master.authorize env identity table with ⟨fault | scope, master'⟩ <;> rfl

end Master

/-- The filter of a session does not depend on the bridge, and does nothing to it. -/
theorem Session.scopedQuery_withBridge (session : Session) (env : Surroundings) (table : String)
    (master : Master) (bridge : Bridge) :
    session.scopedQuery env table (master.withBridge bridge) =
      (session.scopedQuery env table master).map id (·.withBridge bridge) := by
  have hidentity : session.identity env (master.withBridge bridge) =
      (session.identity env master).map id (·.withBridge bridge) := rfl
  unfold scopedQuery withIdentity
  rw [hidentity]
  rcases session.identity env master with ⟨fault | identity, master'⟩
  · rfl
  · exact master'.scopedQuery_withBridge bridge env identity table

/-! ## Queries by ordinal -/

namespace Session

variable {session : Session} {env : Surroundings} {master : Master} {ordinal : Int32}

/-- Where insisting on the table fails, nothing else happens. -/
theorem scopedQueryAt_of_error {fault : Fault}
    (h : (master.ask env (.requireTable session.version ordinal)).1 = .error fault) :
    session.scopedQueryAt env ordinal master =
      (.error fault, (master.ask env (.requireTable session.version ordinal)).2) := by
  unfold scopedQueryAt
  rcases hask : master.ask env (.requireTable session.version ordinal) with ⟨result, master'⟩
  rw [hask] at h
  obtain rfl : result = .error fault := h
  rfl

/-- Where the bridge holds a catalog that has the table, the filter is that of its name. -/
theorem scopedQueryAt_of_ok {canonical : Int32} {catalog : Catalog} {name : String}
    (h : (master.ask env (.requireTable session.version ordinal)).1 = .ok canonical)
    (hholds : (master.ask env (.requireTable session.version ordinal)).2.bridge.Holds catalog)
    (hname : catalog.tableName? canonical = some name) :
    session.scopedQueryAt env ordinal master =
      (session.scopedQuery env name master).map (·.map (name, ·))
        (·.withBridge (master.ask env (.requireTable session.version ordinal)).2.bridge) := by
  unfold scopedQueryAt
  rcases hask : master.ask env (.requireTable session.version ordinal) with ⟨result, master'⟩
  rw [hask] at h hholds
  obtain rfl : result = .ok canonical := h
  have hmaster : master' = master.withBridge master'.bridge := by
    have hafter : (master.ask env (.requireTable session.version ordinal)).2 = master' :=
      congrArg Prod.snd hask
    rw [← hafter]
    rfl
  have htable : master'.tableName env canonical = (.ok (some name), master') := by
    simp only [Master.tableName, Bridge.tableName, hholds.runCatalog, hname]
  have hquery : session.scopedQuery env name master' =
      (session.scopedQuery env name master).map id (·.withBridge master'.bridge) := by
    rw [← session.scopedQuery_withBridge, ← hmaster]
  simp only [htable, hquery]
  rcases session.scopedQuery env name master with ⟨fault | query, queried⟩ <;> rfl

section

variable {registry : Registry} {catalog : Catalog} {versions : List ProtocolVersion}
  {tables : List TableDescriptor} (hload : Catalog.load registry = .ok catalog)
  (htables : registry.tables = .ok tables)
  (hholds : (master.ask env (.requireTable session.version ordinal)).2.bridge.Holds catalog)
include hload htables hholds

/-- The id of a table that was read has the table's name. -/
theorem scopedQueryAt_of_mem {table : TableDescriptor} (hmem : table ∈ tables)
    (h : (master.ask env (.requireTable session.version ordinal)).1 = .ok table.id) :
    session.scopedQueryAt env ordinal master =
      (session.scopedQuery env table.name master).map (·.map (table.name, ·))
        (·.withBridge (master.ask env (.requireTable session.version ordinal)).2.bridge) := by
  obtain ⟨_, _, listed, -, -, hlisted, hnodup, -, hcatalog⟩ := Catalog.load_eq_ok_iff.mp hload
  obtain rfl : listed = tables := Except.ok.inj (hlisted.symm.trans htables)
  apply session.scopedQueryAt_of_ok h hholds
  rw [hcatalog, Catalog.tableName?, find?_eq_some_of_mem hnodup hmem]
  rfl

/-- However insisting ends, the session is not told of an internal error, and the bridge is asked
once. -/
theorem blameless_scopedQueryAt
    (h : InsistsOnTable versions tables session.version ordinal
      (master.ask env (.requireTable session.version ordinal)).1) :
    Blameless (session.scopedQueryAt env ordinal master).1
      ∧ (session.scopedQueryAt env ordinal master).2.bridge =
        (master.ask env (.requireTable session.version ordinal)).2.bridge := by
  rcases h.cases with hrefused | ⟨missing, hmissing⟩ | ⟨version, -, -, table, htable, hok⟩
  · rw [scopedQueryAt_of_error hrefused]
    exact ⟨nofun, rfl⟩
  · rw [scopedQueryAt_of_error hmissing]
    exact ⟨nofun, rfl⟩
  · rw [scopedQueryAt_of_mem hload htables hholds (mem_of_tableAt? htable) hok]
    exact ⟨(Blameless.sessionScopedQuery master env session table.name).map _, rfl⟩

end

end Session

/-- Whatever happened to a master before, a session that asks by ordinal is never told of an
internal error. If insisting on the table fails, that is all it is told, and nothing but the bridge
has been asked. Insisting fails as the registry does if no catalog is kept and none can be loaded.
Otherwise it goes by one reading of the registry, of which the bridge keeps the catalog, and
if it gives a table, then the one at that position among those that the version counts, and the
outcome is that of the query for its name. -/
theorem scopedQueryAt_by_catalog {w : World} (h : w.Arises) (session : Session)
    (ordinal : Int32) :
    let asked := w.master.ask w.env (.requireTable session.version ordinal)
    let answered := session.scopedQueryAt w.env ordinal w.master
    (∀ text, answered.1 ≠ .error (.internal text))
      ∧ (∀ fault, asked.1 = .error fault →
          answered = (.error fault, w.master.withBridge asked.2.bridge))
      ∧ ((∃ cause, w.master.bridge.catalog = none
            ∧ Catalog.load w.store.registry = .error (.metadata cause)
            ∧ asked.1 = .error (.metadata cause))
        ∨ ∃ registry catalog versions tables,
            Catalog.load registry = .ok catalog
            ∧ registry.versions = .ok versions ∧ registry.tables = .ok tables
            ∧ (w.master.bridge.catalog = some catalog
              ∨ w.master.bridge.catalog = none ∧ registry = w.store.registry)
            ∧ answered.2.bridge.catalog = some catalog
            ∧ InsistsOnTable versions tables session.version ordinal asked.1
            ∧ ∀ canonical, asked.1 = .ok canonical →
              ∃ version ∈ versions, version.token = session.version
                ∧ ∃ table, tableAt? versions version.releasedMs tables ordinal = some table
                  ∧ table.id = canonical
                  ∧ answered =
                    (session.scopedQuery w.env table.name w.master).map (·.map (table.name, ·))
                      (·.withBridge asked.2.bridge)) := by
  intro asked answered
  have hfailed (fault : Fault) (hfault : asked.1 = .error fault) :
      answered = (.error fault, w.master.withBridge asked.2.bridge) :=
    session.scopedQueryAt_of_error hfault
  rcases h.isCoherent.ask_cases w.store.registry (.requireTable session.version ordinal) with
    ⟨fault, hnone, hload, hask⟩ | ⟨registry, catalog, hload, hsource, hask, hholds⟩
  · obtain ⟨cause, rfl⟩ := w.store.blamesMetadata_load fault hload
    have hasked : asked.1 = .error (.metadata cause) := by
      refine (congrArg Prod.fst hask).trans ?_
      rw [VersionQuery.requireTable_on]
      rfl
    refine ⟨?_, hfailed, .inl ⟨cause, hnone, hload, hasked⟩⟩
    intro text hinternal
    rw [hfailed _ hasked] at hinternal
    cases hinternal
  · change (w.master.ask w.env _).2.bridge.Holds catalog at hholds
    obtain ⟨versions, _, tables, hversions, -, htables, -⟩ := Catalog.load_eq_ok_iff.mp hload
    have hinsists : InsistsOnTable versions tables session.version ordinal asked.1 := by
      have hinsists := insistsOnTable_of_load hload hversions htables session.version ordinal
      rwa [← hask] at hinsists
    obtain ⟨hblameless, hbridge⟩ := session.blameless_scopedQueryAt hload htables hholds hinsists
    refine ⟨hblameless, hfailed, .inr ⟨registry, catalog, versions, tables, hload, hversions,
      htables, hsource, ?_, hinsists, ?_⟩⟩
    · rw [hbridge]
      exact hholds.catalog_eq
    · intro canonical hcanonical
      rcases hinsists.cases with
        hrefused | ⟨missing, hmissing⟩ | ⟨version, hmem, htoken, table, htable, hok⟩
      · cases hrefused.symm.trans hcanonical
      · cases hmissing.symm.trans hcanonical
      · exact ⟨version, hmem, htoken, table, htable, Except.ok.inj (hok.symm.trans hcanonical),
          session.scopedQueryAt_of_mem hload htables hholds (mem_of_tableAt? htable) hok⟩

/-- One version and one table. -/
def jobsDocument : MetadataDocument where
  root := ⟨1⟩
  accounts := [{ id := ⟨1⟩ }]
  protocolVersions := [⟨"v1", 10⟩]
  tables := [{ id := 5, name := "jobs", validity := { since := "v1" } }]

theorem exists_eq_ok_of_isOk {α ε : Type} {result : Except ε α} (h : result.isOk = true) :
    ∃ value, result = .ok value := by
  cases result with
  | error cause => cases h
  | ok value => exact ⟨value, rfl⟩

/-- A master over the store that the document becomes. -/
theorem exists_arises_jobsDocument :
    ∃ w : World, w.Arises ∧ w.master.bridge = {}
      ∧ w.store = { snapshot := .ofDocument jobsDocument, rules := {} } := by
  have hstore : Store.ofDocument jobsDocument =
      .ok { snapshot := .ofDocument jobsDocument, rules := {} } := by decide +kernel
  obtain ⟨master, hmaster⟩ : ∃ master, Master.create {} {} = .ok master :=
    exists_eq_ok_of_isOk (by decide +kernel)
  exact ⟨_, .created (.loaded hstore) hmaster .zero, Master.bridge_of_create hmaster, rfl⟩

/-- A table that was put before the first one is not counted until the bridge is told. -/
theorem scopedQueryAt_by_catalog_of_insertion :
    ∃ w : World, w.Arises
      ∧ w.store.snapshot.tables.map (·.name) = ["lanes", "jobs"]
      ∧ (w.master.ask w.env (.requireTable "v1" 0)).1 = .ok 5
      ∧ ∀ session : Session, session.version = "v1" →
        (session.scopedQueryAt w.env 0 w.master).1 =
          (session.scopedQuery w.env "jobs" w.master).1.map ("jobs", ·) := by
  obtain ⟨start, hstart, hbridge, hstore⟩ := exists_arises_jobsDocument
  have hregistry : start.store.registry = ⟨.ok [⟨"v1", 10⟩], .ok jobsDocument.tables⟩ := by
    rw [hstore]
    rfl
  obtain ⟨catalog, hload⟩ : ∃ catalog, Catalog.load start.store.registry = .ok catalog := by
    apply exists_eq_ok_of_isOk
    rw [hregistry]
    decide +kernel
  let read : World := { start with
    master := { start.master with
      bridge := (start.master.bridge.lookUp start.store.registry (.tableName 5)).2 } }
  let w := read.step (.change (.insertTable 0
    { id := 7, name := "lanes", validity := { since := "v1" } }))
  have harises : w.Arises := (hstart.looked (.tableName 5)).stepped _
  have hholds : w.master.bridge.Holds catalog := by
    have hempty : start.master.bridge.IsEmpty := by
      rw [hbridge]
      exact Bridge.isEmpty_new
    exact hempty.holds_lookUp hload (.tableName 5)
  have hasked : (w.master.ask w.env (.requireTable "v1" 0)).1 = .ok 5 := by
    refine ((hholds.gives w.store.registry).ask_fst (.requireTable "v1" 0)).trans ?_
    rw [← hload, hregistry]
    decide +kernel
  refine ⟨w, harises, ?_, hasked, ?_⟩
  · simp only [w, read, World.step, hstore]
    rfl
  · rintro session hversion
    obtain ⟨-, -, ⟨cause, hnone, -⟩ | ⟨registry, kept, versions, tables, hload', hversions, htables,
      hsource, -, -, hfound⟩⟩ := scopedQueryAt_by_catalog harises session 0
    · cases hnone.symm.trans hholds.catalog_eq
    · rw [hversion] at hfound
      obtain ⟨version, -, -, table, htable, -, hanswered⟩ := hfound 5 hasked
      have hkept : kept = catalog := by
        rcases hsource with hsome | ⟨hnone, -⟩
        · exact Option.some.inj (hsome.symm.trans hholds.catalog_eq)
        · cases hnone.symm.trans hholds.catalog_eq
      have htables' : tables = jobsDocument.tables := by
        rw [← (Catalog.holds_of_load hload' hversions htables).tables_eq, hkept]
        exact (Catalog.holds_of_load hload (by rw [hregistry]) (by rw [hregistry])).tables_eq
      have hname : table.name = "jobs" := by
        have hmem := mem_of_tableAt? htable
        rw [htables', jobsDocument, List.mem_singleton] at hmem
        rw [hmem]
      rw [hanswered, hname]
      rfl

/-- Of two versions, one that is known is told of the metadata and one that is not is refused, in
one state. So no property of states tells which of the two a failure is. -/
theorem requireTable_fails_both_ways :
    ∃ w : World, w.Arises
      ∧ (w.master.ask w.env (.requireTable "v1" 0)).1 =
        .error (.metadata (.unknownVersion "v9"))
      ∧ (w.master.ask w.env (.requireTable "v0" 0)).1 = .error (.protocolMismatch "v0" .table 0)
      ∧ ¬ ∃ IsConsistent : World → Prop,
        ∀ (w : World) (session : Session) (ordinal : Int32) (fault : Fault), w.Arises →
          (w.master.ask w.env (.requireTable session.version ordinal)).1 = .error fault →
            (¬ IsConsistent w → ∃ cause, fault = .metadata cause)
              ∧ (IsConsistent w →
                fault = .protocolMismatch session.version .table ordinal.toInt) := by
  obtain ⟨start, hstart, hbridge, hstore⟩ := exists_arises_jobsDocument
  let w := start.step (.change (.insertTable 1
    { id := 7, name := "lanes", validity := { since := "v9" } }))
  have harises : w.Arises := hstart.stepped _
  have hask (query : VersionQuery Int32) : (w.master.ask w.env query).1 =
      query.on (Catalog.load w.store.registry) := by
    have hempty : w.master.bridge.IsEmpty := by
      rw [show w.master.bridge = {} from hbridge]
      exact Bridge.isEmpty_new
    exact (hempty.agrees _).gives.ask_fst query
  have hregistry : w.store.registry = ⟨.ok [⟨"v1", 10⟩],
      .ok [{ id := 5, name := "jobs", validity := { since := "v1" } },
        { id := 7, name := "lanes", validity := { since := "v9" } }]⟩ := by
    simp only [w, World.step, hstore]
    rfl
  have hknown : (w.master.ask w.env (.requireTable "v1" 0)).1 =
      .error (.metadata (.unknownVersion "v9")) := by
    rw [hask, hregistry]
    decide +kernel
  have hunknown : (w.master.ask w.env (.requireTable "v0" 0)).1 =
      .error (.protocolMismatch "v0" .table 0) := by
    rw [hask, hregistry]
    decide +kernel
  refine ⟨w, harises, hknown, hunknown, ?_⟩
  rintro ⟨IsConsistent, htells⟩
  by_cases hconsistent : IsConsistent w
  · cases (htells w ⟨"ops", "v1", ⟨1⟩⟩ 0 _ harises hknown).2 hconsistent
  · obtain ⟨cause, hcause⟩ := (htells w ⟨"ops", "v0", ⟨1⟩⟩ 0 _ harises hunknown).1 hconsistent
    cases hcause

end ControlPlane
