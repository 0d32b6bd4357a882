/-
# Answers of a master that keeps what the store gives

Where everything that is kept for a key is what the store gives for it, a master answers as if
nothing were kept.
-/

import ControlPlane.Proofs.Master.Keeping

namespace ControlPlane

/-- What has a property is what a store gives, as far as a user's sessions ask for it. -/
structure Kept.Determines (kept : Kept) (store : Store) (username : String) : Prop where
  identity (identity : Identity) :
    kept.identity ⟨.identity, username⟩ identity → store.resolveIdentity username = .ok identity
  scope (identity : Identity) (options : ScopeOptions) (key : CacheKey) (scope : AccessScope) :
    store.resolveIdentity username = .ok identity → identity.scopeKey? options = some key →
      kept.scope key scope → store.computeScope identity options = .ok scope
  rowCount (table : String) (query : QueryScope) (rows : UInt64) :
    kept.rowCount (rowCountKey table query) rows →
      (store.read.map fun s => s.rowCount table query) = .ok rows
  bridge (bridge : Bridge) :
    kept.bridge bridge → bridge.Agrees (Catalog.load store.registry)

/-- A session that is given an identity goes on with it. -/
theorem Session.withIdentity_of_identity {α : Type} {session : Session} {env : Surroundings}
    {master : Master} {identity : Identity}
    (h : (session.identity env master).1 = .ok identity)
    (next : Master → Identity → Except Fault α × Master) :
    session.withIdentity env master next = next (session.identity env master).2 identity := by
  rw [withIdentity]
  rcases hrun : session.identity env master with ⟨result, master'⟩
  rw [hrun] at h
  rw [show result = _ from h]

namespace Master.Keeps

variable {kept : Kept} {master origin : Master} {identity : Identity} {env : Surroundings}

theorem admittedRule_eq (h : master.Keeps kept origin) (hrules : origin.rules = env.store.rules)
    (identity : Identity) (table : String) :
    master.admittedRule identity table = env.store.admittedRule identity table := by
  cases hrule : env.store.rules.get? table <;>
    simp [Master.admittedRule, Store.admittedRule, h.rules_eq, hrules, hrule]

theorem resolveIdentity_fst (h : master.Keeps kept origin) {username : String}
    (hkept : ∀ identity, kept.identity ⟨.identity, username⟩ identity →
      env.store.resolveIdentity username = .ok identity) :
    (master.resolveIdentity env username).1 = env.store.resolveIdentity username := by
  simp only [Master.resolveIdentity, ScopeResolver.identity]
  exact h.identities.getOrCompute_eq hkept fun _ => rfl

/-! ### Requests on behalf of an identity -/

section

variable (h : master.Keeps kept origin) (hrules : origin.rules = env.store.rules)
  (hkept : ∀ options key scope, identity.scopeKey? options = some key →
    kept.scope key scope → env.store.computeScope identity options = .ok scope)

include h hrules hkept

theorem authorize_fst (table : String) :
    (master.authorize env identity table).1 = env.store.authorize identity table := by
  rw [Master.authorize, Store.authorize, h.admittedRule_eq hrules]
  cases hrule : env.store.admittedRule identity table with
  | error fault => rfl
  | ok rule =>
      simp only [bind, Except.bind]
      by_cases hscoped : rule.isScoped = true
      · rw [if_pos hscoped, if_pos hscoped]
        unfold ScopeResolver.accessScope
        cases hkey : identity.scopeKey? rule.scopeOptions with
        | none =>
            cases identity with
            | operator username => rfl
            | scopedOperator username hosts permissions => cases hkey
            | tenant username account => cases hkey
        | some key =>
            exact h.scopes.getOrCompute_eq (fun scope => hkept _ key scope hkey) fun _ => rfl
      · rw [if_neg hscoped, if_neg hscoped]
        rfl

theorem scopedQuery_fst (table : String) :
    (master.scopedQuery env identity table).1 = env.store.scopedQuery identity table := by
  have hscope := h.authorize_fst hrules hkept table
  -- The rules stay, so the master finds the same rule after it computed the scope.
  have hrule : (master.authorize env identity table).2.admittedRule identity table =
      env.store.admittedRule identity table :=
    (h.forgetScopes.authorize env table fun _ _ _ _ _ _ _ _ => trivial).admittedRule_eq hrules
      identity table
  rw [Master.scopedQuery, Store.scopedQuery, ← hscope]
  rcases hrun : master.authorize env identity table with ⟨fault | scope, master'⟩
  · rfl
  · rw [hrun] at hrule
    simp only [hrule]
    rfl

theorem rowCount_fst (table : String)
    (hcount : ∀ query rows, kept.rowCount (rowCountKey table query) rows →
      (env.store.read.map fun s => s.rowCount table query) = .ok rows) :
    (master.rowCount env identity table).1 = env.store.rowCount identity table := by
  have hquery := h.scopedQuery_fst hrules hkept table
  have hafter : (master.scopedQuery env identity table).2.rowCounts.Holds kept.rowCount :=
    (h.forgetScopes.scopedQuery env table fun _ _ _ _ _ _ _ _ => trivial).rowCounts
  rw [Master.rowCount, Store.rowCount, ← hquery]
  rcases hrun : master.scopedQuery env identity table with ⟨fault | query, master'⟩
  · rfl
  · rw [hrun] at hafter
    refine (hafter.getOrCompute_eq (hcount query) fun _ => rfl).trans ?_
    cases env.store.read <;> rfl

end

/-! ### Requests of sessions -/

theorem ask_fst {α : Type}
    (h : (master.bridge).Agrees (Catalog.load env.store.registry)) (query : VersionQuery α) :
    (master.ask env query).1 = env.store.ask query := by
  simp only [Master.ask, Bridge.ask, Store.ask, h.runView_fst]

theorem tableName_fst (h : (master.bridge).Agrees (Catalog.load env.store.registry))
    (canonical : Int32) :
    (master.tableName env canonical).1 = env.store.tableName canonical := by
  simp only [Master.tableName, Bridge.tableName, Store.tableName, ← h.runCatalog_fst]
  rcases master.bridge.runCatalog env.store.registry .find with ⟨fault | catalog, bridge⟩ <;> rfl

/-- Going on with the session's identity gives what it gives on the store. -/
theorem withIdentity_fst {α : Type} (h : master.Keeps kept origin)
    (habsorbs : kept.Absorbs env.store) {session : Session}
    (hdetermines : kept.Determines env.store session.username)
    {next : Master → Identity → Except Fault α × Master} {result : Identity → Except Fault α}
    (hnext : ∀ (master' : Master) identity, master'.Keeps kept origin →
      env.store.resolveIdentity session.username = .ok identity →
      (next master' identity).1 = result identity) :
    (session.withIdentity env master next).1 =
      env.store.resolveIdentity session.username >>= result := by
  have hresolved := h.resolveIdentity env session.username (habsorbs.identity session.username)
  have hresult : (master.resolveIdentity env session.username).1 = _ :=
    h.resolveIdentity_fst hdetermines.identity
  rw [← hresult, Session.withIdentity, Session.identity]
  rcases hrun : master.resolveIdentity env session.username with ⟨fault | identity, master'⟩
  · rfl
  · rw [hrun] at hresolved hresult
    exact hnext master' identity hresolved hresult.symm

/-- Where everything kept is what the store gives, a session is told what it would be told
without any cache. -/
theorem answer_fst (h : master.Keeps kept origin)
    (hrules : origin.rules = env.store.rules)
    (habsorbs : kept.Absorbs env.store) {session : Session}
    (hdetermines : kept.Determines env.store session.username) (request : SessionRequest) :
    (session.answer env request master).1 = env.store.answer session request := by
  have hscope (identity : Identity)
      (hresolve : env.store.resolveIdentity session.username = .ok identity)
      (options : ScopeOptions) (key : CacheKey) (scope : AccessScope) :=
    hdetermines.scope identity options key scope hresolve
  have hquery (master' : Master) (h' : master'.Keeps kept origin)
      (table : String) :
      (session.scopedQuery env table master').1 =
        env.store.resolveIdentity session.username >>= (env.store.scopedQuery · table) := by
    apply h'.withIdentity_fst habsorbs hdetermines
    intro _ identity hkeeps hresolve
    exact hkeeps.scopedQuery_fst hrules (hscope identity hresolve) table
  cases request with
  | identity =>
      exact congrArg (Except.map SessionAnswer.identity)
        (h.resolveIdentity_fst hdetermines.identity)
  | authorize table =>
      have hauthorize : (session.authorize env table master).1 =
          env.store.resolveIdentity session.username >>= (env.store.authorize · table) := by
        apply h.withIdentity_fst habsorbs hdetermines
        intro master' identity hkeeps hresolve
        exact hkeeps.authorize_fst hrules (hscope identity hresolve) table
      refine (congrArg (Except.map SessionAnswer.scope) hauthorize).trans ?_
      rw [Store.answer]
      cases env.store.resolveIdentity session.username <;> rfl
  | scopedQuery table =>
      refine (congrArg (Except.map SessionAnswer.query) (hquery master h table)).trans ?_
      rw [Store.answer]
      cases env.store.resolveIdentity session.username <;> rfl
  | rowCount table =>
      have hcount : (session.rowCount env table master).1 =
          env.store.resolveIdentity session.username >>= (env.store.rowCount · table) := by
        apply h.withIdentity_fst habsorbs hdetermines
        intro master' identity hkeeps hresolve
        apply hkeeps.rowCount_fst hrules (hscope identity hresolve) table
        intro query rows hkept
        exact hdetermines.rowCount table query rows hkept
      refine (congrArg (Except.map SessionAnswer.count) hcount).trans ?_
      rw [Store.answer]
      cases env.store.resolveIdentity session.username <;> rfl
  | scopedQueryAt ordinal =>
      have hasked := h.ask env (.requireTable session.version ordinal)
        (habsorbs.view master.bridge _)
      have hcanonical : (master.ask env (.requireTable session.version ordinal)).1 = _ :=
        ask_fst (hdetermines.bridge master.bridge h.bridge) _
      change (session.scopedQueryAt env ordinal master).1.map _ = _
      rw [Store.answer, ← hcanonical, Session.scopedQueryAt]
      rcases hask : master.ask env (.requireTable session.version ordinal) with
        ⟨fault | canonical, master₁⟩
      · rfl
      rw [hask] at hasked
      have hnamed := hasked.tableName env canonical (habsorbs.catalog master₁.bridge)
      have hname : (master₁.tableName env canonical).1 = _ :=
        tableName_fst (hdetermines.bridge master₁.bridge hasked.bridge) canonical
      simp only [bind, Except.bind, ← hname]
      rcases htable : master₁.tableName env canonical with ⟨fault | _ | table, master₂⟩
      · rfl
      · rfl
      rw [htable] at hnamed
      have hqueried := hquery master₂ hnamed table
      have hresult : (env.store.resolveIdentity session.username >>= fun identity =>
          (env.store.scopedQuery identity table).map (SessionAnswer.tableQuery table)) =
          (session.scopedQuery env table master₂).1.map (.tableQuery table) := by
        rw [hqueried]
        cases env.store.resolveIdentity session.username <;> rfl
      refine Eq.trans ?_ hresult.symm
      simp only
      rcases session.scopedQuery env table master₂ with ⟨fault | query, master₃⟩ <;> rfl

end Master.Keeps

end ControlPlane
