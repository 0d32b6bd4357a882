/-
# Answers from an assignment

A scoped operator is to be told what follows from the hosts assigned to it: on a scoped table
these hosts and their relatives, the filter that this scope becomes, and the number of rows
that pass the filter. A row count may be older than the request, and a store that cannot be
reached may be reported instead.

A master whose kept scopes for the operator are those of the assignment gives such answers.
-/

import ControlPlane.Proofs.Master.Answers
import ControlPlane.Proofs.Master.Derivation

namespace ControlPlane

open Std (ExtTreeSet)

/-- What is assigned to a scoped operator. -/
structure Assignment where
  username : String
  hosts : ExtTreeSet HostId
  permissions : ExtTreeSet String

namespace Assignment

def role (a : Assignment) : UserRole :=
  .scopedOperator a.hosts a.permissions

def identity (a : Assignment) : Identity :=
  .scopedOperator a.username a.hosts a.permissions

/-- The scope that an assignment gives on a table. -/
def scopeOn (a : Assignment) (store : Store) (table : String) : Except Fault AccessScope := do
  let rule ← store.admittedRule a.identity table
  if rule.isScoped then
    return .hosts (store.snapshot.topology.expand a.hosts rule.scopeOptions)
  else return .unrestricted

/-- The filter that an assignment gives on a table. -/
def queryOn (a : Assignment) (store : Store) (table : String) : Except Fault QueryScope := do
  let scope ← a.scopeOn store table
  (← store.admittedRule a.identity table).parameterize scope

/-- On a scoped table that admits the operator, the scope is exactly the assigned hosts and
their relatives. -/
theorem scopeOn_of_isScoped {a : Assignment} {store : Store} {table : String} {rule : TableRule}
    (hrule : store.rules.get? table = some rule) (hadmits : rule.admits a.identity = true)
    (hscoped : rule.isScoped = true) :
    a.scopeOn store table =
      .ok (.hosts (store.snapshot.topology.expand a.hosts rule.scopeOptions)) := by
  have hadmitted : store.admittedRule a.identity table = .ok rule := by
    simp only [Store.admittedRule, hrule, hadmits, if_true]
  simp only [scopeOn, hadmitted, bind, Except.bind, hscoped, if_true]
  rfl

theorem eq_identity {a : Assignment} {identity : Identity}
    (hname : identity.username = a.username) (hrole : identity.role = a.role) :
    identity = a.identity := by
  cases identity with
  | operator username => cases hrole
  | tenant username account => cases hrole
  | scopedOperator username hosts permissions =>
      obtain rfl : username = a.username := hname
      cases hrole
      rfl

end Assignment

/-- The expected result, or the report that the store cannot be reached. -/
def Store.Tells {α : Type} (store : Store) (expected result : Except Fault α) : Prop :=
  result = expected
    ∨ store.isAvailable = false ∧ result = .error (.metadata .storeUnavailable)

theorem Store.Tells.eq {α : Type} {store : Store} {expected result : Except Fault α}
    (h : store.Tells expected result) (havailable : store.isAvailable = true) :
    result = expected :=
  h.resolve_right fun ⟨houtage, _⟩ => by simp [havailable] at houtage

theorem Store.tells_of_outage {α : Type} {store : Store} (h : store.isAvailable = false)
    (expected : Except Fault α) : store.Tells expected (.error (.metadata .storeUnavailable)) :=
  .inr ⟨h, rfl⟩

theorem Store.Tells.of_eq {α : Type} {store : Store} {expected result result' : Except Fault α}
    (h : store.Tells expected result) (heq : result' = result) : store.Tells expected result' :=
  heq ▸ h

/-- What a session is told about a table follows from an assignment. -/
structure World.Honours (w : World) (saw : Snapshot → Prop) (a : Assignment) (session : Session)
    (table : String) : Prop where
  authorize : w.store.Tells (a.scopeOn w.store table) (session.authorize w.env table w.master).1
  scopedQuery :
    w.store.Tells (a.queryOn w.store table) (session.scopedQuery w.env table w.master).1
  /-- Rows are counted as they were at some time. -/
  rowCount : ∃ s, saw s ∧ w.store.Tells ((a.queryOn w.store table).map (s.rowCount table))
    (session.rowCount w.env table w.master).1

/-! ## What the store gives -/

namespace Store

theorem tells_read {α : Type} (store : Store) (derive : Snapshot → α) :
    store.Tells (.ok (derive store.snapshot)) (store.read.map derive) := by
  cases havailable : store.isAvailable with
  | true =>
      left
      rw [read, if_pos havailable]
      rfl
  | false =>
      right
      rw [read_of_not_isAvailable havailable]
      exact ⟨havailable, rfl⟩

theorem computeScope_online_scopedOperator (store : Store) (username : String)
    (hosts : ExtTreeSet HostId) (permissions : ExtTreeSet String) (options : ScopeOptions) :
    store.online.computeScope (.scopedOperator username hosts permissions) options =
      .ok (.hosts (store.snapshot.topology.expand hosts options)) := by
  have hread : store.online.read = .ok store.snapshot := rfl
  rw [computeScope, expandHosts_eq hread]
  rfl

theorem tells_resolveIdentity {store : Store} {a : Assignment}
    (hassigned : store.snapshot.users[a.username]? = some a.role) :
    store.Tells (.ok a.identity) (store.resolveIdentity a.username) := by
  cases havailable : store.isAvailable with
  | true =>
      left
      rw [← online_of_isAvailable havailable]
      refine (store.resolveIdentity_online_eq_ok_iff a.username a.identity).mpr
        ⟨⟨rfl, hassigned⟩, fun _ _ hidentity => ?_⟩
      cases hidentity
  | false =>
      right
      rw [resolveIdentity, read_of_not_isAvailable havailable]
      exact ⟨havailable, rfl⟩

theorem tells_computeScope (store : Store) (a : Assignment) (options : ScopeOptions) :
    store.Tells (.ok (.hosts (store.snapshot.topology.expand a.hosts options)))
      (store.computeScope a.identity options) := by
  cases havailable : store.isAvailable with
  | true =>
      left
      rw [← online_of_isAvailable havailable]
      exact store.computeScope_online_scopedOperator _ _ _ _
  | false =>
      -- No store is needed where no host is assigned.
      cases hempty : a.hosts.isEmpty with
      | true =>
          left
          have hscope : store.computeScope a.identity options = .ok (.hosts ∅) := by
            rw [Assignment.identity, computeScope, expandHosts, if_pos hempty]
            rfl
          rw [hscope, ← computeScope_online hscope]
          exact store.computeScope_online_scopedOperator _ _ _ _
      | false =>
          right
          rw [Assignment.identity, computeScope, expandHosts, hempty,
            read_of_not_isAvailable havailable]
          exact ⟨havailable, rfl⟩

end Store

/-! ## What a master answers -/

namespace Master.Keeps

variable {kept : Kept} {master origin : Master} {a : Assignment} {saw : Snapshot → Prop}

theorem tells_resolveIdentity (h : master.Keeps kept origin) {env : Surroundings}
    (hassigned : env.store.snapshot.users[a.username]? = some a.role)
    (hkept : ∀ identity, kept.identity ⟨.identity, a.username⟩ identity →
      identity = a.identity) :
    env.store.Tells (.ok a.identity) (master.resolveIdentity env a.username).1 := by
  simp only [Master.resolveIdentity, ScopeResolver.identity]
  rcases AccessCache.getOrCompute_fst master.resolver.identities master.metrics
      ⟨.identity, a.username⟩ env.now fun m => (env.store.resolveIdentity a.username, m) with
    ⟨entry, hentry, hserved⟩ | ⟨m, hcomputed⟩
  · left
    rw [hserved, hkept _ (h.identities hentry)]
  · exact (Store.tells_resolveIdentity hassigned).of_eq hcomputed

section

variable (h : master.Keeps kept origin) (env : Surroundings)
  (hrules : origin.rules = env.store.rules)
  (hkept : ∀ options key scope, a.identity.scopeKey? options = some key →
    kept.scope key scope → scope = .hosts (env.store.snapshot.topology.expand a.hosts options))

include h hrules hkept

theorem tells_authorize (table : String) :
    env.store.Tells (a.scopeOn env.store table) (master.authorize env a.identity table).1 := by
  rw [Master.authorize, Assignment.scopeOn, h.admittedRule_eq hrules]
  cases hrule : env.store.admittedRule a.identity table with
  | error fault => exact .inl rfl
  | ok rule =>
      simp only [bind, Except.bind]
      by_cases hscoped : rule.isScoped = true
      · rw [if_pos hscoped, if_pos hscoped]
        unfold ScopeResolver.accessScope
        obtain ⟨key, hkey⟩ : ∃ key, a.identity.scopeKey? rule.scopeOptions = some key := ⟨_, rfl⟩
        rw [hkey]
        simp only
        rcases AccessCache.getOrCompute_fst master.resolver.scopes master.metrics key env.now
            (master.resolver.computeScope env.store a.identity rule.scopeOptions) with
          ⟨entry, hentry, hserved⟩ | ⟨m, hcomputed⟩
        · left
          rw [hserved, hkept _ _ _ hkey (h.scopes hentry)]
          rfl
        · exact (env.store.tells_computeScope a rule.scopeOptions).of_eq hcomputed
      · rw [if_neg hscoped, if_neg hscoped]
        exact .inl rfl

theorem tells_scopedQuery (table : String) :
    env.store.Tells (a.queryOn env.store table) (master.scopedQuery env a.identity table).1 := by
  have hscope := h.tells_authorize env hrules hkept table
  have hrule : (master.authorize env a.identity table).2.admittedRule a.identity table =
      env.store.admittedRule a.identity table :=
    (h.forgetScopes.authorize env table fun _ _ _ _ _ _ _ _ => trivial).admittedRule_eq hrules
      a.identity table
  rw [Master.scopedQuery]
  rcases hrun : master.authorize env a.identity table with ⟨result, master'⟩
  rw [hrun] at hscope hrule
  rcases hscope with hexpected | ⟨houtage, hreport⟩
  · left
    rw [Assignment.queryOn, ← hexpected]
    cases result with
    | error fault => rfl
    | ok scope =>
        simp only [hrule]
        rfl
  · right
    rw [show result = _ from hreport]
    exact ⟨houtage, rfl⟩

theorem tells_rowCount (hsaw : saw env.store.snapshot) (table : String)
    (hcount : ∀ query rows, kept.rowCount (rowCountKey table query) rows →
      ∃ s, saw s ∧ rows = s.rowCount table query) :
    ∃ s, saw s ∧ env.store.Tells ((a.queryOn env.store table).map (s.rowCount table))
      (master.rowCount env a.identity table).1 := by
  have hquery := h.tells_scopedQuery env hrules hkept table
  have hafter : (master.scopedQuery env a.identity table).2.rowCounts.Holds kept.rowCount :=
    (h.forgetScopes.scopedQuery env table fun _ _ _ _ _ _ _ _ => trivial).rowCounts
  rw [Master.rowCount]
  rcases hrun : master.scopedQuery env a.identity table with ⟨result, master'⟩
  rw [hrun] at hquery hafter
  rcases hquery with hexpected | ⟨houtage, hreport⟩
  · rw [← hexpected]
    cases result with
    | error fault => exact ⟨_, hsaw, .inl rfl⟩
    | ok query =>
        rcases AccessCache.getOrCompute_fst master'.rowCounts master'.metrics
            (rowCountKey table query) env.now
            (fun m => (env.store.read.map fun s => s.rowCount table query, m)) with
          ⟨entry, hentry, hserved⟩ | ⟨m, hcomputed⟩
        · obtain ⟨s, hs, hrows⟩ := hcount query entry.value (hafter hentry)
          refine ⟨s, hs, .inl ?_⟩
          exact hserved.trans (congrArg Except.ok hrows)
        · exact ⟨_, hsaw, (env.store.tells_read _).of_eq hcomputed⟩
  · rw [show result = _ from hreport]
    exact ⟨_, hsaw, .inr ⟨houtage, rfl⟩⟩

end

end Master.Keeps

end ControlPlane
