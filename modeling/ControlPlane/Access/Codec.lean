/-
# Identities, scopes, rules and filters as data

The written forms of what callers exchange about access. Alternatives are told apart by
a tag among the fields; a rule's scoping shares the record of the rule. Filters and
chains are only written.
-/

import ControlPlane.Access.Ownership
import ControlPlane.Authorization
import ControlPlane.Datum.Decode

namespace ControlPlane

namespace Identity

def readOperator : Decoder Identity := fun format datum => do
  let fields ← Fields.ofDatum? ["username"] format datum
  return .operator (← fields.required "username" .text)

def readScopedOperator : Decoder Identity := fun format datum => do
  let fields ← Fields.ofDatum? ["username", "hosts", "permissions"] format datum
  return .scopedOperator (← fields.required "username" .text)
    (← fields.required "hosts" (Decoder.set .id))
    (← fields.defaulted "permissions" ∅ (Decoder.set .text))

def readTenant : Decoder Identity := fun format datum => do
  let fields ← Fields.ofDatum? ["username", "account"] format datum
  return .tenant (← fields.required "username" .text) (← fields.required "account" .id)

def ofDatum? : Decoder Identity :=
  .tagged "kind" [("operator", readOperator), ("scoped-operator", readScopedOperator),
    ("tenant", readTenant)]

def toDatum : Identity → Datum
  | .operator username => .record [("kind", .text "operator"), ("username", .text username)]
  | .scopedOperator username hosts permissions =>
      .record [("kind", .text "scoped-operator"), ("username", .text username),
        ("hosts", .ofSet .ofId hosts), ("permissions", .ofSet .text permissions)]
  | .tenant username account =>
      .record [("kind", .text "tenant"), ("username", .text username), ("account", .ofId account)]

instance : OfDatum Identity := ⟨ofDatum?⟩

instance : ToDatum Identity := ⟨toDatum⟩

end Identity

namespace Principal

/-- A class without content is written as its name, or as its name with null. -/
def ofDatum? : Decoder Principal
  | _, .text "operator" => some .operator
  | _, .text "scoped-operator" => some .scopedOperator
  | _, .record [("operator", .null)] => some .operator
  | _, .record [("scoped-operator", .null)] => some .scopedOperator
  | format, .record [("tenant", account)] => (Decoder.id format account).map .tenant
  | _, _ => none

def toDatum : Principal → Datum
  | .operator => .text "operator"
  | .scopedOperator => .text "scoped-operator"
  | .tenant account => .record [("tenant", .ofId account)]

instance : OfDatum Principal := ⟨ofDatum?⟩

instance : ToDatum Principal := ⟨toDatum⟩

end Principal

namespace AccessScope

/-- The scope of a kind with given ids; an unrestricted scope has none. -/
def ofKind? (kind : String) (ids : Option Datum) (format : Format) : Option AccessScope :=
  match kind, ids with
  | "unrestricted", none => some .unrestricted
  | "unrestricted", some .null => some .unrestricted
  | "accounts", some ids => (Decoder.set .id format ids).map .accounts
  | "hosts", some ids => (Decoder.set .id format ids).map .hosts
  | _, _ => none

def ofDatum? : Decoder AccessScope
  | format, .record fields => do
      let kind ← Decoder.text format (← fields.lookup "kind")
      ofKind? kind (fields.lookup "ids") format
  | format, .list [.text kind, ids] => ofKind? kind (some ids) format
  | _, _ => none

def toDatum : AccessScope → Datum
  | .unrestricted => .record [("kind", .text "unrestricted")]
  | .accounts ids => .record [("kind", .text "accounts"), ("ids", .ofSet .ofId ids)]
  | .hosts ids => .record [("kind", .text "hosts"), ("ids", .ofSet .ofId ids)]

instance : OfDatum AccessScope := ⟨ofDatum?⟩

instance : ToDatum AccessScope := ⟨toDatum⟩

end AccessScope

namespace ScopeOptions

def ofDatum? : Decoder ScopeOptions := fun format datum => do
  let fields ← Fields.ofDatum? ["include_replication"] format datum
  return { includeReplication := ← fields.defaulted "include_replication" false .bool }

def toDatum (options : ScopeOptions) : Datum :=
  .record [("include_replication", .bool options.includeReplication)]

instance : OfDatum ScopeOptions := ⟨ofDatum?⟩

instance : ToDatum ScopeOptions := ⟨toDatum⟩

end ScopeOptions

namespace TableScoping

def readOwnershipChain : Decoder TableScoping := fun format datum => do
  let fields ← Fields.ofRecord? format datum
  return .ownershipChain (← fields.required "owner_column" .text)
    (← fields.optional "host_column" .text)

def readHostTopology : Decoder TableScoping := fun format datum => do
  let fields ← Fields.ofRecord? format datum
  return .hostTopology (← fields.required "host_column" .text)

def readPermissionGated : Decoder TableScoping := fun format datum => do
  let fields ← Fields.ofRecord? format datum
  return .permissionGated (← fields.required "permission" .text)

/-- Read a scoping off the record of its rule. -/
def ofDatum? : Decoder TableScoping :=
  .taggedWithin "scope" [("ownership-chain", readOwnershipChain),
    ("host-topology", readHostTopology), ("unrestricted", fun _ _ => some .unrestricted),
    ("permission-gated", readPermissionGated)]

/-- The fields that a scoping adds to the record of its rule. -/
def toFields : TableScoping → List (String × Datum)
  | .ownershipChain ownerColumn hostColumn =>
      [("scope", .text "ownership-chain"), ("owner_column", .text ownerColumn),
        ("host_column", .ofOption .text hostColumn)]
  | .hostTopology hostColumn =>
      [("scope", .text "host-topology"), ("host_column", .text hostColumn)]
  | .unrestricted => [("scope", .text "unrestricted")]
  | .permissionGated permission =>
      [("scope", .text "permission-gated"), ("permission", .text permission)]

end TableScoping

namespace TableRule

def ofDatum? : Decoder TableRule := fun format datum => do
  let fields ← Fields.ofRecord? format datum
  return {
    table := ← fields.required "table" .text
    scoping := ← TableScoping.ofDatum? format datum
    includeReplication := ← fields.defaulted "include_replication" false .bool }

def toDatum (rule : TableRule) : Datum :=
  .record ([("table", .text rule.table)] ++ rule.scoping.toFields
    ++ [("include_replication", .bool rule.includeReplication)])

instance : OfDatum TableRule := ⟨ofDatum?⟩

instance : ToDatum TableRule := ⟨toDatum⟩

end TableRule

namespace QueryScope

/-- The data of a filter, the accounts or hosts in ascending order. -/
def toDatum : QueryScope → Datum
  | .all => .record [("filter", .text "all")]
  | .accountIn column accounts =>
      .record [("filter", .text "account-in"), ("column", .text column),
        ("accounts", .ofSet .ofId accounts)]
  | .hostIn column hosts =>
      .record [("filter", .text "host-in"), ("column", .text column),
        ("hosts", .ofSet .ofId hosts)]

instance : ToDatum QueryScope := ⟨toDatum⟩

end QueryScope

/-- A chain is written as its accounts, the tenant first. -/
def OwnershipChain.toDatum (chain : OwnershipChain) : Datum :=
  .record [("accounts", .ofList .ofId chain.accounts)]

instance : ToDatum OwnershipChain := ⟨OwnershipChain.toDatum⟩

end ControlPlane
