/-
# Revocation

An operator's hosts are replaced and the change is announced. From then on the operator's
sessions should be told what follows from the new assignment. What stands against it is that
a scope is computed from the hosts of whatever identity is presented, but kept under the
username alone: a caller who still holds an older identity of the operator can have a scope
kept that is then served to the operator's own sessions.

So revocation is final exactly if every older identity that is still presented sees the same
hosts as the new assignment, on each scoped table that admits it.
-/

import ControlPlane.Proofs.Master.Assignment
import ControlPlane.Proofs.Master.Creation
import ControlPlane.Proofs.Master.Keys
import Mathlib.Control.Monad.Basic
import Mathlib.Data.List.Induction

namespace ControlPlane

open Std (ExtTreeSet)

/-! ## Undisturbed runs -/

/-- Whether a change is one to a user or to the hosts. -/
def Store.Change.Concerns (username : String) : Store.Change → Prop
  | .upsertUser name _ | .removeUser name => name = username
  | .upsertHost _ => True
  | _ => False

/-- Neither a user nor the hosts change. -/
def Undisturbed (username : String) (steps : List WorldStep) : Prop :=
  ∀ change, .change change ∈ steps → ¬ change.Concerns username

theorem Store.Change.undisturbed_apply {change : Store.Change} {username : String}
    (h : ¬ change.Concerns username) (s : Snapshot) :
    (change.apply s).users[username]? = s.users[username]?
      ∧ (change.apply s).topology = s.topology := by
  cases change with
  | upsertUser name role =>
      have hne : name ≠ username := h
      exact ⟨by simp [apply, Std.ExtTreeMap.getElem?_insert, hne], rfl⟩
  | removeUser name =>
      have hne : name ≠ username := h
      exact ⟨by simp [apply, Std.ExtTreeMap.getElem?_erase, hne], rfl⟩
  | upsertHost host => exact absurd trivial h
  | _ => exact ⟨rfl, rfl⟩

namespace World

/-- An undisturbed run leaves the user and the hosts as they were. -/
theorem undisturbed_run {username : String} {steps : List WorldStep}
    (h : Undisturbed username steps) (w : World) :
    (w.run steps).store.snapshot.users[username]? = w.store.snapshot.users[username]?
      ∧ (w.run steps).store.snapshot.topology = w.store.snapshot.topology := by
  induction steps generalizing w with
  | nil => exact ⟨rfl, rfl⟩
  | cons step steps ih =>
      have hrest : Undisturbed username steps := fun change hmem =>
        h change (List.mem_cons_of_mem step hmem)
      obtain ⟨husers, htopology⟩ := ih hrest (w.step step)
      rw [run_cons, husers, htopology]
      cases step with
      | change change =>
          exact Store.Change.undisturbed_apply (h change List.mem_cons_self) w.store.snapshot
      | _ => exact ⟨rfl, rfl⟩

/-- A new assignment stands until the user changes again. -/
theorem assigned_run {a : Assignment} {between : List WorldStep}
    (h : Undisturbed a.username between) (w : World) (before : List WorldStep) :
    let steps := before ++ .change (.upsertUser a.username a.role) :: between
    (w.run steps).store.snapshot.users[a.username]? = some a.role := by
  intro steps
  rw [run_append, run_cons, (undisturbed_run h _).1]
  exact Std.ExtTreeMap.getElem?_insert_self

/-- The contents that the store has had by the end of a run. -/
def Saw (w : World) (steps : List WorldStep) (s : Snapshot) : Prop :=
  ∃ earlier, earlier <+: steps ∧ (w.run earlier).store.snapshot = s

theorem saw_last (w : World) (steps : List WorldStep) :
    w.Saw steps (w.run steps).store.snapshot :=
  ⟨steps, List.prefix_refl steps, rfl⟩

theorem Saw.append {w : World} {steps : List WorldStep} {s : Snapshot} (h : w.Saw steps s)
    (more : List WorldStep) : w.Saw (steps ++ more) s := by
  obtain ⟨earlier, hprefix, hs⟩ := h
  exact ⟨earlier, hprefix.trans (List.prefix_append steps more), hs⟩

end World

/-! ## What is kept -/

/-- Rows are kept counted as they were at some time. -/
def counted (saw : Snapshot → Prop) : Kept where
  identity _ _ := True
  scope _ _ := True
  rowCount key rows :=
    ∀ table query, key = rowCountKey table query → ∃ s, saw s ∧ rows = s.rowCount table query
  bridge _ := True

/-- Besides row counts, nothing is kept of users and their hosts. -/
def userless (saw : Snapshot → Prop) : Kept where
  identity key _ := key.cls ≠ .identity
  scope key _ := key.cls ≠ .hostTopology
  rowCount := (counted saw).rowCount
  bridge _ := True

/-- What is kept of a user follows from an assignment, and identities are kept under the names
they are of. -/
def Assignment.kept (a : Assignment) (topology : Topology) (saw : Snapshot → Prop) : Kept where
  identity key identity :=
    ∀ username, key = ⟨.identity, username⟩ →
      identity.username = username ∧ (username = a.username → identity = a.identity)
  scope key scope :=
    ∀ options, a.identity.scopeKey? options = some key →
      scope = .hosts (topology.expand a.hosts options)
  rowCount := (counted saw).rowCount
  bridge _ := True

/-- Whether a host set is as good as another on the scoped tables that admit its holder. -/
def Assignment.SameHosts (a : Assignment) (topology : Topology) (rules : TableRules)
    (hosts : ExtTreeSet HostId) (permissions : ExtTreeSet String) : Prop :=
  ∀ table rule, rules.get? table = some rule → rule.isScoped = true →
    rule.admits (.scopedOperator a.username hosts permissions) = true →
    topology.expand hosts rule.scopeOptions = topology.expand a.hosts rule.scopeOptions

section

variable {a : Assignment} {topology : Topology} {saw : Snapshot → Prop} {store : Store}

theorem rowCount_counted {s : Snapshot} (hs : saw s) (table : String) (query : QueryScope) :
    (counted saw).rowCount (rowCountKey table query) (s.rowCount table query) := by
  intro other query' hkey
  obtain ⟨rfl, rfl⟩ := rowCountKey_inj hkey
  exact ⟨s, hs, rfl⟩

theorem rowCount_append {start : World} {steps : List WorldStep} {key : CacheKey} {rows : UInt64}
    (h : (counted (start.Saw steps)).rowCount key rows) (more : List WorldStep) :
    (counted (start.Saw (steps ++ more))).rowCount key rows := by
  intro table query hkey
  obtain ⟨s, hs, hrows⟩ := h table query hkey
  exact ⟨s, hs.append more, hrows⟩

theorem absorbs_counted (hsaw : saw store.snapshot) : (counted saw).Absorbs store where
  identity _ _ _ := trivial
  scope _ _ _ _ _ _ _ _ := trivial
  rowCount s table query hread := by
    rw [Store.eq_snapshot_of_read hread]
    exact rowCount_counted hsaw table query
  view _ _ _ := trivial
  catalog _ _ := trivial

/-- A computed scope may be kept if it is not that of other hosts of the same user. -/
theorem Assignment.kept_scope {identity : Identity} {options : ScopeOptions} {key : CacheKey}
    {scope : AccessScope} (hkey : identity.scopeKey? options = some key)
    (hscope : store.computeScope identity options = .ok scope)
    (hsame : ∀ hosts permissions, identity = .scopedOperator a.username hosts permissions →
      store.snapshot.topology.expand hosts options =
        store.snapshot.topology.expand a.hosts options) :
    (a.kept store.snapshot.topology saw).scope key scope := by
  intro options' hkey'
  rcases eq_of_scopeKey?_eq hkey hkey' with
    ⟨_, _, _, _, hidentity⟩ | ⟨username, hosts, permissions, hosts', permissions', rfl, hidentity,
      rfl⟩
  · cases hidentity
  · obtain ⟨rfl, -, -⟩ := Identity.scopedOperator.inj hidentity
    have honline := Store.computeScope_online hscope
    rw [Store.computeScope_online_scopedOperator, hsame hosts permissions rfl] at honline
    exact (Except.ok.inj honline).symm

/-- What a session derives follows from the assignment that the directory says. -/
theorem Assignment.absorbs_kept (hassigned : store.snapshot.users[a.username]? = some a.role)
    (hsaw : saw store.snapshot) : (a.kept store.snapshot.topology saw).Absorbs store where
  identity username identity hresolve name hkey := by
    obtain rfl : username = name := (CacheKey.mk.inj hkey).2
    obtain ⟨⟨hname, hrole⟩, -⟩ := (store.resolveIdentity_online_eq_ok_iff username identity).mp
      (Store.resolveIdentity_online hresolve)
    refine ⟨hname, ?_⟩
    rintro rfl
    exact a.eq_identity hname (Option.some.inj (hrole.symm.trans hassigned))
  scope username identity options key scope hkept hkey hscope := by
    apply Assignment.kept_scope hkey hscope
    rintro hosts permissions rfl
    obtain ⟨hname, hidentity⟩ := hkept username rfl
    obtain ⟨-, rfl, -⟩ := Identity.scopedOperator.inj (hidentity hname.symm)
    rfl
  rowCount := (absorbs_counted hsaw).rowCount
  view _ _ _ := trivial
  catalog _ _ := trivial

theorem Assignment.takesScopes_kept {rules : TableRules} {identity : Identity}
    (hsame : ∀ hosts permissions, identity = .scopedOperator a.username hosts permissions →
      a.SameHosts store.snapshot.topology rules hosts permissions) (table : String) :
    (a.kept store.snapshot.topology saw).TakesScopes store rules identity table := by
  intro rule key scope hrule hadmits hscoped hkey hscope
  apply Assignment.kept_scope hkey hscope
  rintro hosts permissions rfl
  exact hsame hosts permissions rfl table rule hrule hscoped hadmits

end

/-! ## Runs -/

namespace Master.Keeps

variable {master origin : Master} {start : World} {a : Assignment} {saw : Snapshot → Prop}

theorem counted_run (h : start.master.Keeps (counted (start.Saw [])) origin)
    (steps : List WorldStep) :
    (start.run steps).master.Keeps (counted (start.Saw steps)) origin := by
  induction steps using List.reverseRecOn with
  | nil => exact h
  | append_singleton steps step ih =>
      have hbefore : (start.run steps).master.Keeps (counted (start.Saw (steps ++ [step])))
          origin :=
        ih.monoRowCounts fun _ _ hkept => rowCount_append hkept [step]
      have hsaw := (start.saw_last steps).append [step]
      rw [World.run_concat]
      apply hbefore.step (absorbs_counted hsaw)
      · intro bridge _ _
        trivial
      · intro identity request _ rule key scope _ _ _ _ _
        trivial

/-- An announcement of a user's table leaves no identity and no scope of hosts. -/
theorem announce_users (h : master.Keeps (counted saw) origin)
    (hcover : origin.invalidation.Cover) {event : InvalidationEvent}
    (htable : event.table ∈ MetadataPart.users.tables) :
    (master.announce event).2.Keeps (userless saw) origin := by
  have hgone (cls : ResourceClass) (hcls : cls ∈ MetadataPart.users.classes) :
      cls ∈ origin.invalidation.classesFor event.table :=
    hcover .users event.table htable cls hcls
  refine (h.announce event).mono ?_ ?_ (fun _ _ hleft => hleft.2) fun _ => trivial
  · rintro key _ ⟨hleft, -⟩ hcls
    exact hleft (hcls ▸ hgone .identity (by decide))
  · rintro key _ ⟨hleft, -⟩ hcls
    exact hleft (hcls ▸ hgone .hostTopology (by decide))

/-- What keeps nothing of any user follows from every assignment. -/
theorem kept_of_userless (h : master.Keeps (userless saw) origin) (a : Assignment)
    (topology : Topology) : master.Keeps (a.kept topology saw) origin := by
  refine h.mono ?_ ?_ (fun _ _ hkept => hkept) fun hkept => hkept
  · rintro key identity hcls username rfl
    exact absurd rfl hcls
  · intro key scope hcls options hkey
    exact absurd (congrArg CacheKey.cls (Option.some.inj hkey)).symm hcls

/-- Once an assignment was announced, what is kept of its user follows from it, as long as no
other hosts of the user are presented. -/
theorem kept_run {steps after : List WorldStep}
    (h : (start.run steps).master.Keeps
      (a.kept (start.run steps).store.snapshot.topology (start.Saw steps)) origin)
    (hassigned : (start.run steps).store.snapshot.users[a.username]? = some a.role)
    (hundisturbed : Undisturbed a.username after)
    (hsame : ∀ hosts permissions request,
      .askAs (.scopedOperator a.username hosts permissions) request ∈ after →
      a.SameHosts (start.run steps).store.snapshot.topology origin.rules hosts permissions) :
    (start.run (steps ++ after)).master.Keeps
      (a.kept (start.run steps).store.snapshot.topology (start.Saw (steps ++ after))) origin := by
  induction after using List.reverseRecOn with
  | nil => rwa [List.append_nil]
  | append_singleton after step ih =>
      have hearlier : Undisturbed a.username after := fun change hmem =>
        hundisturbed change (List.mem_append_left _ hmem)
      have hbefore := ih hearlier fun hosts permissions request hmem =>
        hsame hosts permissions request (List.mem_append_left _ hmem)
      obtain ⟨husers, htopology⟩ := World.undisturbed_run hearlier (start.run steps)
      rw [← World.run_append] at husers htopology
      rw [← List.append_assoc, World.run_concat]
      rw [← htopology] at hbefore hsame ⊢
      have hsaw := (start.saw_last (steps ++ after)).append [step]
      have habsorbs := Assignment.absorbs_kept (husers.trans hassigned) hsaw
      apply Keeps.step (hbefore.monoRowCounts fun _ _ hkept => rowCount_append hkept [step])
        habsorbs
      · intro bridge _ _
        trivial
      · rintro identity request rfl
        apply Assignment.takesScopes_kept
        rintro hosts permissions rfl
        exact hsame hosts permissions request (List.mem_append_right _ List.mem_cons_self)

end Master.Keeps

/-- An assignment has just been announced: the directory says it, and the master keeps nothing
of any user. -/
structure World.JustAnnounced (w : World) (a : Assignment) (saw : Snapshot → Prop)
    (origin : Master) : Prop where
  keeps : w.master.Keeps (userless saw) origin
  assigned : w.store.snapshot.users[a.username]? = some a.role
  rules_eq : origin.rules = w.store.rules
  serve : origin.resolver.scopes.settings.Serve

/-- A run from a new master that ends with the announcement of an assignment. -/
theorem World.justAnnounced_run (start : World) (hnew : start.master.IsNew start.store.rules)
    {a : Assignment} {between : List WorldStep} (hundisturbed : Undisturbed a.username between)
    {event : InvalidationEvent} (htable : event.table ∈ MetadataPart.users.tables)
    (before : List WorldStep) :
    let steps := before ++ .change (.upsertUser a.username a.role) :: between
      ++ [.announce event]
    (start.run steps).JustAnnounced a (start.Saw steps) start.master := by
  intro steps
  have hcold : start.master.Keeps (counted (start.Saw [])) start.master :=
    Master.keeps_of_isCold hnew.isCold trivial
  have hcounted := hcold.counted_run
    (before ++ .change (.upsertUser a.username a.role) :: between)
  constructor
  · rw [run_concat]
    exact (hcounted.announce_users hnew.cover htable).monoRowCounts fun _ _ hkept =>
      rowCount_append hkept _
  · rw [run_concat]
    exact assigned_run hundisturbed start before
  · exact hnew.rules_eq.trans (start.rules_run steps).symm
  · exact hnew.serve

/-! ## Sessions of the user -/

section

variable {origin : Master} {w : World} {a : Assignment} {saw : Snapshot → Prop}
  {session : Session}

section

variable (h : w.master.Keeps (a.kept w.store.snapshot.topology saw) origin)
  (hassigned : w.store.snapshot.users[a.username]? = some a.role)
  (hsaw : saw w.store.snapshot) (hsession : session.username = a.username)

include h hassigned hsaw hsession

/-- A session of the user goes on with the assigned identity, unless the store cannot be
reached. -/
theorem withIdentity_of_assigned {α : Type}
    {next : Master → Identity → Except Fault α × Master} {P : Except Fault α → Prop}
    (hreport : w.store.isAvailable = false → P (.error (.metadata .storeUnavailable)))
    (hnext : ∀ master : Master, master.Keeps (a.kept w.store.snapshot.topology saw) origin →
      P (next master a.identity).1) :
    P (session.withIdentity w.env w.master next).1 := by
  have hresolved := h.resolveIdentity w.env session.username
    ((Assignment.absorbs_kept hassigned hsaw).identity session.username)
  have htold : w.store.Tells (.ok a.identity) (w.master.resolveIdentity w.env a.username).1 :=
    h.tells_resolveIdentity hassigned fun _ hkept => (hkept a.username rfl).2 rfl
  rw [Session.withIdentity, Session.identity, hsession]
  rw [hsession] at hresolved
  rcases hrun : w.master.resolveIdentity w.env a.username with ⟨result, master⟩
  rw [hrun] at hresolved htold
  rcases htold with hidentity | ⟨houtage, hfault⟩
  · rw [show result = _ from hidentity]
    exact hnext master hresolved
  · rw [show result = _ from hfault]
    exact hreport houtage

theorem honours_of_keeps (hrules : origin.rules = w.store.rules) (table : String) :
    w.Honours saw a session table := by
  have hscope (options : ScopeOptions) (key : CacheKey) (scope : AccessScope)
      (hkey : a.identity.scopeKey? options = some key)
      (hkept : (a.kept w.store.snapshot.topology saw).scope key scope) :
      scope = .hosts (w.store.snapshot.topology.expand a.hosts options) :=
    hkept options hkey
  constructor
  · refine withIdentity_of_assigned (P := w.store.Tells (a.scopeOn w.store table)) h hassigned
      hsaw hsession (fun houtage => Store.tells_of_outage houtage _) ?_
    intro master hkeeps
    exact hkeeps.tells_authorize w.env hrules hscope table
  · refine withIdentity_of_assigned (P := w.store.Tells (a.queryOn w.store table)) h hassigned
      hsaw hsession (fun houtage => Store.tells_of_outage houtage _) ?_
    intro master hkeeps
    exact hkeeps.tells_scopedQuery w.env hrules hscope table
  · refine withIdentity_of_assigned (P := fun result => ∃ s, saw s ∧
        w.store.Tells ((a.queryOn w.store table).map (s.rowCount table)) result) h hassigned
      hsaw hsession (fun houtage => ⟨_, hsaw, Store.tells_of_outage houtage _⟩) ?_
    intro master hkeeps
    exact hkeeps.tells_rowCount w.env hrules hscope hsaw table fun query rows hkept =>
      hkept table query rfl

end

/-- From an announcement on, the user's sessions are told what follows from the assignment, as
long as no other hosts of the user are presented. -/
theorem World.JustAnnounced.honours {start : World} {steps : List WorldStep}
    (h : (start.run steps).JustAnnounced a (start.Saw steps) origin) {after : List WorldStep}
    (hundisturbed : Undisturbed a.username after)
    (hsame : ∀ hosts permissions request,
      .askAs (.scopedOperator a.username hosts permissions) request ∈ after →
      a.SameHosts (start.run steps).store.snapshot.topology origin.rules hosts permissions)
    (hsession : session.username = a.username) (table : String) :
    (start.run (steps ++ after)).Honours (start.Saw (steps ++ after)) a session table := by
  have hkeeps := (h.keeps.kept_of_userless a _).kept_run h.assigned hundisturbed hsame
  obtain ⟨husers, htopology⟩ := undisturbed_run hundisturbed (start.run steps)
  rw [← run_append] at husers htopology
  rw [← htopology] at hkeeps
  have hrules : origin.rules = (start.run (steps ++ after)).store.rules := by
    rw [h.rules_eq, rules_run, rules_run]
  exact honours_of_keeps hkeeps (husers.trans h.assigned) (start.saw_last _) hsession hrules table

end

/-! ## An older identity -/

/-- Which scoped tables admit a scoped operator does not depend on what is assigned. -/
theorem TableRule.admits_of_isScoped {rule : TableRule} (hscoped : rule.isScoped = true)
    (username username' : String) (hosts hosts' : ExtTreeSet HostId)
    (permissions permissions' : ExtTreeSet String) :
    rule.admits (.scopedOperator username hosts permissions) =
      rule.admits (.scopedOperator username' hosts' permissions') := by
  unfold isScoped at hscoped
  unfold admits
  cases hscoping : rule.scoping with
  | permissionGated permission => simp [hscoping] at hscoped
  | _ => rfl

namespace Master

variable {master : Master} {env : Surroundings} {identity : Identity} {table : String}
  {rule : TableRule} {key : CacheKey} {scope : AccessScope}

/-- A scope that may be served is not computed, whatever the identity presented. -/
theorem authorize_of_peek (hrule : master.admittedRule identity table = .ok rule)
    (hscoped : rule.isScoped = true) (hkey : identity.scopeKey? rule.scopeOptions = some key)
    (hpeek : master.resolver.scopes.peek key env.now = some scope) :
    (master.authorize env identity table).1 = .ok scope := by
  simp only [authorize, hrule, hscoped, if_true, ScopeResolver.accessScope, hkey]
  exact AccessCache.getOrCompute_fst_of_peek hpeek

/-- A scope that was just computed may be served. -/
theorem peek_authorize (hrule : master.admittedRule identity table = .ok rule)
    (hscoped : rule.isScoped = true) (hkey : identity.scopeKey? rule.scopeOptions = some key)
    (hnone : master.resolver.scopes.find? key = none)
    (hscope : env.store.computeScope identity rule.scopeOptions = .ok scope)
    (hserve : master.resolver.scopes.settings.Serve)
    (hnow : env.now.ms.toNat < UInt64.size - 1) :
    (master.authorize env identity table).2.resolver.scopes.peek key env.now = some scope := by
  simp only [authorize, hrule, hscoped, if_true, ScopeResolver.accessScope, hkey]
  refine AccessCache.peek_eq_some_iff.mpr ⟨.store scope env.now master.resolver.scopes.settings.ttl,
    ?_, ?_, rfl⟩
  · exact AccessCache.find?_getOrCompute_self (AccessCache.peek_eq_none_of_find? hnone)
      fun _ => hscope
  · rw [AccessCache.settings_getOrCompute]
    exact CacheEntry.isLive_store hserve scope hnow

end Master

section

variable {origin : Master} {w : World} {a : Assignment} {saw : Snapshot → Prop}

/-- A caller asks for a table at the first instant, with other hosts of the user. -/
def staleRequest (a : Assignment) (hosts : ExtTreeSet HostId) (permissions : ExtTreeSet String)
    (table : String) : List WorldStep :=
  [.setAvailable true, .moveClock fun _ => .zero,
    .askAs (.scopedOperator a.username hosts permissions) (.authorize table)]

/-- The scope of the hosts that were presented is served to the user's sessions. -/
theorem authorize_of_staleRequest (h : w.JustAnnounced a saw origin)
    {hosts : ExtTreeSet HostId} {permissions : ExtTreeSet String} {table : String}
    {rule : TableRule} (hrule : w.store.rules.get? table = some rule)
    (hscoped : rule.isScoped = true)
    (hadmits : rule.admits (.scopedOperator a.username hosts permissions) = true)
    {session : Session} (hsession : session.username = a.username) :
    let w' := w.run (staleRequest a hosts permissions table)
    (session.authorize w'.env table w'.master).1 =
      .ok (.hosts (w.store.snapshot.topology.expand hosts rule.scopeOptions)) := by
  let env : Surroundings := ⟨w.store.online, .zero⟩
  let stale : Identity := .scopedOperator a.username hosts permissions
  let master := (w.master.authorize env stale table).2
  change (session.authorize env table master).1 = _
  obtain ⟨key, hkey⟩ : ∃ key, stale.scopeKey? rule.scopeOptions = some key := ⟨_, rfl⟩
  have hcls : key.cls = .hostTopology := congrArg CacheKey.cls (Option.some.inj hkey).symm
  have hcold : w.master.resolver.scopes.find? key = none := by
    rw [Option.eq_none_iff_forall_ne_some]
    intro entry hentry
    exact h.keeps.scopes hentry hcls
  have hadmitted : w.master.admittedRule stale table = .ok rule :=
    Master.admittedRule_eq_ok_iff.mpr
      ⟨by rw [h.keeps.rules_eq, h.rules_eq]; exact hrule, hadmits⟩
  have hpeek : master.resolver.scopes.peek key env.now = some _ :=
    Master.peek_authorize hadmitted hscoped hkey hcold
      (w.store.computeScope_online_scopedOperator a.username hosts permissions _)
      (h.keeps.settings_eq ▸ h.serve) (show (0 : UInt64).toNat < UInt64.size - 1 by decide)
  -- The user's own session finds that scope, once it has looked its identity up.
  have hkeeps : master.Keeps _ origin :=
    h.keeps.forgetScopes.authorize env table fun _ _ _ _ _ _ _ _ => trivial
  have hidentity : (session.identity env master).1 = .ok a.identity := by
    rw [Session.identity, hsession]
    refine Store.Tells.eq (hkeeps.tells_resolveIdentity h.assigned ?_) rfl
    intro identity hkept
    exact absurd rfl hkept
  have hadmitted' : (session.identity env master).2.admittedRule a.identity table = .ok rule := by
    refine Master.admittedRule_eq_ok_iff.mpr ⟨?_, ?_⟩
    · change master.rules.get? table = some rule
      rw [hkeeps.rules_eq, h.rules_eq]
      exact hrule
    · rw [← hadmits]
      exact TableRule.admits_of_isScoped hscoped _ _ _ _ _ _
  rw [Session.authorize, Session.withIdentity_of_identity hidentity]
  exact Master.authorize_of_peek hadmitted' hscoped hkey hpeek

/-- Where the user's sessions are told what follows from the assignment even after such a request,
the hosts that were presented are as good as the assigned ones. -/
theorem sameHosts_of_honours (h : w.JustAnnounced a saw origin) {hosts : ExtTreeSet HostId}
    {permissions : ExtTreeSet String} {saw' : String → Snapshot → Prop}
    {session : Session} (hsession : session.username = a.username)
    (hhonours : ∀ table, (w.run (staleRequest a hosts permissions table)).Honours (saw' table) a
      session table) :
    a.SameHosts w.store.snapshot.topology w.store.rules hosts permissions := by
  intro table rule hrule hscoped hadmits
  have hadmits' : rule.admits a.identity = true :=
    (TableRule.admits_of_isScoped hscoped _ _ _ _ _ _).trans hadmits
  -- What the session should be told, and what it is told.
  have hexpected := Assignment.scopeOn_of_isScoped hrule hadmits' hscoped
  have hserved := authorize_of_staleRequest h hrule hscoped hadmits hsession
  have hhosts := hserved.symm.trans (((hhonours table).authorize.eq rfl).trans hexpected)
  exact AccessScope.hosts.inj (Except.ok.inj hhosts)

end

/-! ## Revocation -/

/-- Set up a master with any accepted configuration, let anything happen, replace the assignment
of an operator and announce that, with anything else in between but changes to the operator or
to the hosts. From then on every session of the operator is told what follows from the new
assignment, whatever else happens and whoever asks with which of some identities, if and only
if those of the identities that are the operator's have the same hosts as far as tables show. -/
theorem revocation_final_iff {config : Config} (hvalid : config.validate = .ok ())
    (store : Store) (now : Tick) :
    ∃ master, Master.create config store.rules = .ok master
      ∧ ∀ (a : Assignment) (before between : List WorldStep) (event : InvalidationEvent),
        Undisturbed a.username between → event.table ∈ MetadataPart.users.tables →
        let start : World := ⟨store, now, master⟩
        let steps := before ++ .change (.upsertUser a.username a.role) :: between
          ++ [.announce event]
        ∀ held : Identity → Prop,
          (∀ after, Undisturbed a.username after →
            (∀ identity request, .askAs identity request ∈ after → held identity) →
            ∀ session : Session, session.username = a.username → ∀ table,
              (start.run (steps ++ after)).Honours (start.Saw (steps ++ after)) a session table)
          ↔ ∀ hosts permissions, held (.scopedOperator a.username hosts permissions) →
            a.SameHosts (start.run steps).store.snapshot.topology store.rules hosts
              permissions := by
  obtain ⟨master, hcreate, hnew⟩ := Master.exists_create_of_validate hvalid store.rules
  refine ⟨master, hcreate, ?_⟩
  intro a before between event hundisturbed htable start steps held
  have hannounced : (start.run steps).JustAnnounced a (start.Saw steps) master :=
    start.justAnnounced_run hnew hundisturbed htable before
  constructor
  · intro hfinal hosts permissions hheld
    obtain ⟨session, hsession⟩ : ∃ session : Session, session.username = a.username :=
      ⟨⟨a.username, "", ⟨0⟩⟩, rfl⟩
    rw [← World.rules_run start steps]
    apply sameHosts_of_honours hannounced hsession
    intro table
    rw [← World.run_append]
    apply hfinal (staleRequest a hosts permissions table)
    · intro change hmem
      simp [staleRequest] at hmem
    · simp [staleRequest, hheld]
    · exact hsession
  · intro hsame after hundisturbed' hheld session hsession table
    apply hannounced.honours hundisturbed' ?_ hsession
    intro hosts permissions request hmem
    rw [hnew.rules_eq]
    exact hsame hosts permissions (hheld _ request hmem)

/-- The operator's new assignment. -/
def reassigned : Assignment where
  username := "ops"
  hosts := {⟨2⟩}
  permissions := ∅

/-- After the announcement the operator's session is told of the new host, whoever else asks, if
nobody comes with other hosts of the operator. -/
theorem revocation_final_of_new_hosts :
    ({} : Config).validate = .ok ()
      ∧ ∃ master, Master.create {} backupStore.rules = .ok master
        ∧ let start : World := ⟨backupStore, .zero, master⟩
          let steps : List WorldStep := [.ask opsSession .identity, .change reassignment,
            .announce { table := "operators" }]
          ∀ after, Undisturbed "ops" after →
            (∀ hosts permissions request,
              .askAs (.scopedOperator "ops" hosts permissions) request ∈ after → hosts = {⟨2⟩}) →
            (start.run (steps ++ after)).Honours (start.Saw (steps ++ after)) reassigned opsSession
              "backups" := by
  have hvalid : ({} : Config).validate = .ok () := rfl
  refine ⟨hvalid, ?_⟩
  obtain ⟨master, hcreate, hfinal⟩ := revocation_final_iff hvalid backupStore .zero
  refine ⟨master, hcreate, ?_⟩
  intro start steps after hundisturbed hhosts
  have hnone : Undisturbed reassigned.username [] := fun _ hmem => by cases hmem
  refine (hfinal reassigned [.ask opsSession .identity] [] { table := "operators" } hnone
    (by decide) fun identity => ∀ hosts permissions,
      identity = .scopedOperator "ops" hosts permissions → hosts = {⟨2⟩}).mpr ?_ after hundisturbed
      ?_ opsSession rfl "backups"
  · intro hosts permissions hheld table rule _ _ _
    rw [hheld hosts permissions rfl]
    rfl
  · rintro identity request hmem hosts permissions rfl
    exact hhosts hosts permissions request hmem

/-- The operator's session is told of the old host after the announcement, because somebody
came with the identity that the operator had before. -/
theorem revoked_scope_served :
    ∃ master, Master.create {} backupStore.rules = .ok master
      ∧ let start : World := ⟨backupStore, .zero, master⟩
        let old : Identity := .scopedOperator "ops" {⟨1⟩} ∅
        let w := start.run [.ask opsSession .identity, .change reassignment,
          .announce { table := "operators" }, .askAs old (.authorize "backups")]
        (opsSession.identity start.env start.master).1 = .ok old
          ∧ (opsSession.authorize w.env "backups" w.master).1 = .ok (.hosts {⟨1⟩})
          ∧ reassigned.scopeOn w.store "backups" = .ok (.hosts {⟨2⟩}) :=
  ⟨_, rfl, by decide +kernel, by decide +kernel, by decide +kernel⟩

end ControlPlane
