/-
# The master

The master answers who may see what, keeps what it derived for that, and drops it when
changes are announced. It asks the store only after a table's rule has admitted the
requester, so a refusal leaves no trace. Each operation takes what surrounds it, and
gives back its result and the master afterwards.
-/

import ControlPlane.Access.Codec
import ControlPlane.Access.Resolver
import ControlPlane.Config.Basic
import ControlPlane.Datum.Json
import ControlPlane.Health
import ControlPlane.Protocol.Bridge
import ControlPlane.Sync.Broadcast

namespace ControlPlane

structure Master where
  rules : TableRules
  invalidation : InvalidationRules
  resolver : ScopeResolver
  rowCounts : AccessCache UInt64
  bridge : Bridge := {}
  gate : Gate
  metrics : Metrics := {}
deriving DecidableEq

/-- Where the row count of a table under a filter is kept: under the filter itself, so
that requesters with equal filters share a count. -/
def rowCountKey (table : String) (query : QueryScope) : CacheKey :=
  ⟨.rowCount table, Json.compactText query.toDatum⟩

namespace Master

/-- Set up a master with the rules of a store. -/
def create (config : Config) (rules : TableRules) : Except Report Master := do
  inContext "invalid configuration" (config.validate.mapError ConfigError.report)
  let settings : CacheSettings := { ttl := config.cache.ttl, maxAge := config.cache.maxAge }
  return {
    rules
    invalidation := InvalidationRules.builtin.addAll (← config.extraDependencies)
    resolver := {
      identities := { name := "identities", settings }
      scopes := { name := "scopes", settings } }
    rowCounts := { name := "row-counts", settings }
    gate := { defaultTimeout := config.drainTimeout } }

/-- The rule of a table, if it admits the identity. -/
def admittedRule (master : Master) (identity : Identity) (table : String) :
    Except Fault TableRule :=
  match master.rules.get? table with
  | some rule => if rule.admits identity then .ok rule else .error .noAccess
  | none => .error .noAccess

/-- The identity of a username. -/
def resolveIdentity (master : Master) (env : Surroundings) (username : String) :
    Except Fault Identity × Master :=
  let (result, resolver, metrics) := master.resolver.identity master.metrics env username
  (result, { master with resolver, metrics })

/-- The scope of an identity on a table. -/
def authorize (master : Master) (env : Surroundings) (identity : Identity) (table : String) :
    Except Fault AccessScope × Master :=
  match master.admittedRule identity table with
  | .error fault => (.error fault, master)
  | .ok rule =>
      if rule.isScoped then
        let (result, resolver, metrics) :=
          master.resolver.accessScope master.metrics env identity rule.scopeOptions
        (result, { master with resolver, metrics })
      else (.ok .unrestricted, master)

/-- The filter for an identity on a table. -/
def scopedQuery (master : Master) (env : Surroundings) (identity : Identity) (table : String) :
    Except Fault QueryScope × Master :=
  match master.authorize env identity table with
  | (.error fault, master) => (.error fault, master)
  | (.ok scope, master) =>
      (do (← master.admittedRule identity table).parameterize scope, master)

/-- How many rows of a table an identity sees. -/
def rowCount (master : Master) (env : Surroundings) (identity : Identity) (table : String) :
    Except Fault UInt64 × Master :=
  match master.scopedQuery env identity table with
  | (.error fault, master) => (.error fault, master)
  | (.ok query, master) =>
      let (result, rowCounts, metrics) :=
        master.rowCounts.getOrCompute master.metrics (rowCountKey table query) env.now
          fun m => (env.store.read.map fun s => s.rowCount table query, m)
      (result, { master with rowCounts, metrics })

/-- The ownership chain of an account. -/
def ownershipChain (master : Master) (env : Surroundings) (account : AccountId) :
    Except Fault OwnershipChain × Master :=
  let (result, metrics) := master.resolver.ownershipChain master.metrics env.store account
  (result, { master with metrics })

/-- Answer a question about a protocol version. -/
def ask {α : Type} (master : Master) (env : Surroundings) (query : VersionQuery α) :
    Except Fault α × Master :=
  let (result, bridge) := master.bridge.ask env.store.registry query
  (result, { master with bridge })

/-- The name of a canonical table. -/
def tableName (master : Master) (env : Surroundings) (table : Int32) :
    Except Fault (Option String) × Master :=
  let (result, bridge) := master.bridge.tableName env.store.registry table
  (result, { master with bridge })

/-- What an announcement reaches, in the order of registration: the three caches, then
the bridge. -/
def targets : List (InvalidationTarget Master) :=
  [fun cls master =>
      let (dropped, identities, metrics) :=
        master.resolver.identities.invalidateClass master.metrics cls
      (dropped, { master with resolver := { master.resolver with identities }, metrics }),
    fun cls master =>
      let (dropped, scopes, metrics) :=
        master.resolver.scopes.invalidateClass master.metrics cls
      (dropped, { master with resolver := { master.resolver with scopes }, metrics }),
    fun cls master =>
      let (dropped, rowCounts, metrics) := master.rowCounts.invalidateClass master.metrics cls
      (dropped, { master with rowCounts, metrics }),
    fun cls master =>
      let (dropped, bridge) := master.bridge.invalidate cls
      (dropped, { master with bridge })]

/-- Announce a committed change. -/
def announce (master : Master) (event : InvalidationEvent) : AnnounceReceipt × Master :=
  let (receipt, master, gate) :=
    announceTo master.invalidation targets event master master.gate
  (receipt,
    { master with gate, metrics := master.metrics.count Metrics.syncAnnounces 1 })

/-- Drop expired data from every cache, and tell how many entries went. -/
def purge (master : Master) (now : Tick) : Nat × Master :=
  let (inIdentities, identities, metrics) := master.resolver.identities.purge master.metrics now
  let (inScopes, scopes, metrics) := master.resolver.scopes.purge metrics now
  let (inRowCounts, rowCounts, metrics) := master.rowCounts.purge metrics now
  (inIdentities + inScopes + inRowCounts,
    { master with
      resolver := { master.resolver with identities, scopes }
      rowCounts
      metrics })

/-- Statistics of every cache, by its name. -/
def cacheStats (master : Master) : List (String × CacheStats) :=
  [(master.resolver.identities.name, master.resolver.identities.stats),
    (master.resolver.scopes.name, master.resolver.scopes.stats),
    (master.rowCounts.name, master.rowCounts.stats)]

/-- Take a step at the gate. -/
def atGate (master : Master) (step : GateStep) : GateReply × Master :=
  let (reply, gate, metrics) := step.perform master.gate master.metrics
  (reply, { master with gate, metrics })

end Master

/-- Probe the store. -/
def Store.health (store : Store) : HealthStatus :=
  match store.read with
  | .ok _ => .healthy
  | .error fault => .unhealthy fault.message

end ControlPlane
