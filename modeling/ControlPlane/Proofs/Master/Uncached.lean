/-
# Answers without any cache

What a master would answer that derives everything anew for each request. It has the store
and nothing else: no identity, scope, row count, catalog or view outlives a request. The
requests of a session are gathered in one type, so that the two kinds of master can be
compared on all of them at once.
-/

import ControlPlane.Session

namespace ControlPlane

namespace Store

/-- The rule of a table, if it admits the identity. -/
def admittedRule (store : Store) (identity : Identity) (table : String) :
    Except Fault TableRule :=
  match store.rules.get? table with
  | some rule => if rule.admits identity then .ok rule else .error .noAccess
  | none => .error .noAccess

/-- The scope of an identity on a table. -/
def authorize (store : Store) (identity : Identity) (table : String) :
    Except Fault AccessScope := do
  let rule ← store.admittedRule identity table
  if rule.isScoped then store.computeScope identity rule.scopeOptions else return .unrestricted

/-- The filter for an identity on a table. -/
def scopedQuery (store : Store) (identity : Identity) (table : String) :
    Except Fault QueryScope := do
  let scope ← store.authorize identity table
  (← store.admittedRule identity table).parameterize scope

/-- How many rows of a table an identity sees. -/
def rowCount (store : Store) (identity : Identity) (table : String) : Except Fault UInt64 := do
  let query ← store.scopedQuery identity table
  return (← store.read).rowCount table query

/-- Answer a question about a protocol version. -/
def ask {α : Type} (store : Store) (query : VersionQuery α) : Except Fault α :=
  query.answer (Catalog.load store.registry >>= (·.view query.version))

/-- The name of a canonical table. -/
def tableName (store : Store) (table : Int32) : Except Fault (Option String) :=
  (Catalog.load store.registry).map (·.tableName? table)

end Store

/-- What a session can ask. -/
inductive SessionRequest
  | identity
  | authorize (table : String)
  | scopedQuery (table : String)
  | rowCount (table : String)
  | scopedQueryAt (ordinal : Int32)

/-- What a session is told. -/
inductive SessionAnswer
  | identity (identity : Identity)
  | scope (scope : AccessScope)
  | query (query : QueryScope)
  | count (rows : UInt64)
  | tableQuery (table : String) (query : QueryScope)

/-- The master's answer to a request of a session. -/
def Session.answer (session : Session) (env : Surroundings) (request : SessionRequest)
    (master : Master) : Except Fault SessionAnswer × Master :=
  match request with
  | .identity => (session.identity env master).map (·.map .identity) id
  | .authorize table => (session.authorize env table master).map (·.map .scope) id
  | .scopedQuery table => (session.scopedQuery env table master).map (·.map .query) id
  | .rowCount table => (session.rowCount env table master).map (·.map .count) id
  | .scopedQueryAt ordinal =>
      (session.scopedQueryAt env ordinal master).map
        (·.map fun answer => .tableQuery answer.1 answer.2) id

/-- The answer to a request of a session without any cache. -/
def Store.answer (store : Store) (session : Session) :
    SessionRequest → Except Fault SessionAnswer
  | .identity => (store.resolveIdentity session.username).map .identity
  | .authorize table => do
      let identity ← store.resolveIdentity session.username
      (store.authorize identity table).map .scope
  | .scopedQuery table => do
      let identity ← store.resolveIdentity session.username
      (store.scopedQuery identity table).map .query
  | .rowCount table => do
      let identity ← store.resolveIdentity session.username
      (store.rowCount identity table).map .count
  | .scopedQueryAt ordinal => do
      let canonical ← store.ask (.requireTable session.version ordinal)
      match ← store.tableName canonical with
      | none => .error (.internal s!"table {canonical.toInt} has no name")
      | some table =>
          let identity ← store.resolveIdentity session.username
          (store.scopedQuery identity table).map (.tableQuery table)

end ControlPlane
