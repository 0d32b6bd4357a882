/-
# Resolving identities and scopes

Identities are computed from the user directory, scopes from the ownership tree or the
host topology; both are cached. The scope of a scoped operator is kept under its
username, so it is the assignment of whoever asked first until the class is dropped.
-/

import ControlPlane.Access.Cache
import ControlPlane.Metadata.Store

namespace ControlPlane

open Std (ExtTreeSet)

/-- What a request finds around it: the store and the reading of the clock. -/
structure Surroundings where
  store : Store
  now : Tick

/-- Scope computations and their caches. -/
structure ScopeResolver where
  identities : AccessCache Identity
  scopes : AccessCache AccessScope
  /-- Whether inconsistencies are counted in the metrics. -/
  isMetered : Bool := true
deriving DecidableEq

namespace Store

/-- The identity of a username. Unknown users and tenants of accounts that are gone
have no access. -/
def resolveIdentity (store : Store) (username : String) : Except Fault Identity := do
  let s ← store.read
  match s.classify username with
  | none => .error .noAccess
  | some .operator => return .operator username
  | some .scopedOperator =>
      return .scopedOperator username (s.assignedHosts username) (s.permissions username)
  | some (.tenant account) =>
      if s.hierarchy.contains account then return .tenant username account
      else .error .noAccess

def ownershipChain (store : Store) (account : AccountId) : Except Fault OwnershipChain := do
  (← store.read).hierarchy.walk account

/-- The hosts visible through an assignment. The store is asked once for each assigned
host, so not at all for an empty assignment. -/
def expandHosts (store : Store) (assigned : ExtTreeSet HostId) (options : ScopeOptions) :
    Except Fault (ExtTreeSet HostId) :=
  if assigned.isEmpty then .ok ∅
  else return (← store.read).topology.expand assigned options

/-- The scope of an identity. -/
def computeScope (store : Store) (identity : Identity) (options : ScopeOptions) :
    Except Fault AccessScope :=
  match identity with
  | .operator _ => .ok .unrestricted
  | .tenant _ account => return .accounts (← store.ownershipChain account).toSet
  | .scopedOperator _ hosts _ => return .hosts (← store.expandHosts hosts options)

end Store

/-- Where the scope of an identity is kept. The scope of an operator is not kept. -/
def Identity.scopeKey? (identity : Identity) (options : ScopeOptions) : Option CacheKey :=
  match identity with
  | .operator _ => none
  | .tenant .. => some ⟨.tenantHierarchy, identity.cacheSubject⟩
  | .scopedOperator .. =>
      some ⟨.hostTopology,
        identity.cacheSubject ++ ":replication="
          ++ (if options.includeReplication then "true" else "false")⟩

namespace ScopeResolver

/-- Count a result that reports an inconsistency. Failures of the store are none. -/
def noteInconsistency {α : Type} (r : ScopeResolver) (m : Metrics) (result : Except Fault α) :
    Metrics :=
  match result with
  | .error fault =>
      if r.isMetered && fault.isInconsistency then m.count Metrics.scopeInconsistencies 1 else m
  | .ok _ => m

/-- The ownership chain of an account. -/
def ownershipChain (r : ScopeResolver) (m : Metrics) (store : Store) (account : AccountId) :
    Except Fault OwnershipChain × Metrics :=
  let result := store.ownershipChain account
  (result, r.noteInconsistency m result)

/-- The scope of an identity, computed afresh. -/
def computeScope (r : ScopeResolver) (store : Store) (identity : Identity)
    (options : ScopeOptions) (m : Metrics) : Except Fault AccessScope × Metrics :=
  let result := store.computeScope identity options
  (result, r.noteInconsistency m result)

/-- The identity of a username, from the cache if it is there. -/
def identity (r : ScopeResolver) (m : Metrics) (env : Surroundings) (username : String) :
    Except Fault Identity × ScopeResolver × Metrics :=
  let (result, identities, m) := r.identities.getOrCompute m ⟨.identity, username⟩ env.now
    fun m => (env.store.resolveIdentity username, m)
  (result, { r with identities }, m)

/-- The scope of an identity, from the cache if it is there. -/
def accessScope (r : ScopeResolver) (m : Metrics) (env : Surroundings) (identity : Identity)
    (options : ScopeOptions) : Except Fault AccessScope × ScopeResolver × Metrics :=
  match identity.scopeKey? options with
  | none => (.ok .unrestricted, r, m)
  | some key =>
      let (result, scopes, m) := r.scopes.getOrCompute m key env.now
        (r.computeScope env.store identity options)
      (result, { r with scopes }, m)

end ScopeResolver

end ControlPlane
