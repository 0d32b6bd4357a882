/-
# Metadata documents as data

The written form of every record of a document. The validity of a descriptor and the role
of a user share the record of the descriptor or the user. Reading what was written gives
the document back.
-/

import ControlPlane.Access.Codec
import ControlPlane.Metadata.Document

namespace ControlPlane

namespace ProtocolVersion

def ofDatum? : Decoder ProtocolVersion := fun format datum => do
  let fields ← Fields.ofDatum? ["token", "released_ms"] format datum
  return {
    token := ← fields.required "token" .text
    releasedMs := ← fields.required "released_ms" .word }

def toDatum (version : ProtocolVersion) : Datum :=
  .record [("token", .text version.token), ("released_ms", .ofWord version.releasedMs)]

instance : OfDatum ProtocolVersion := ⟨ofDatum?⟩

instance : ToDatum ProtocolVersion := ⟨toDatum⟩

end ProtocolVersion

namespace Validity

/-- Read a validity off fields that may hold more. -/
def ofFields? (fields : Fields) : Option Validity := do
  return {
    since := ← fields.required "since" .text
    last := ← fields.optional "last" .text }

/-- Read a validity that stands alone. -/
def ofDatum? : Decoder Validity := fun format datum =>
  (Fields.ofDatum? ["since", "last"] format datum).bind ofFields?

def toFields (validity : Validity) : List (String × Datum) :=
  [("since", .text validity.since), ("last", .ofOption .text validity.last)]

instance : OfDatum Validity := ⟨ofDatum?⟩

end Validity

namespace ColumnDescriptor

def ofDatum? : Decoder ColumnDescriptor := fun format datum => do
  let fields ← Fields.ofRecord? format datum
  return {
    id := ← fields.required "id" .int32
    name := ← fields.required "name" .text
    validity := ← Validity.ofFields? fields }

def toDatum (column : ColumnDescriptor) : Datum :=
  .record ([("id", .ofInt32 column.id), ("name", .text column.name)] ++ column.validity.toFields)

end ColumnDescriptor

namespace TableDescriptor

def ofDatum? : Decoder TableDescriptor := fun format datum => do
  let fields ← Fields.ofRecord? format datum
  return {
    id := ← fields.required "id" .int32
    name := ← fields.required "name" .text
    validity := ← Validity.ofFields? fields
    columns := ← fields.defaulted "columns" [] (.list ColumnDescriptor.ofDatum?) }

def toDatum (table : TableDescriptor) : Datum :=
  .record ([("id", .ofInt32 table.id), ("name", .text table.name)] ++ table.validity.toFields
    ++ [("columns", .ofList ColumnDescriptor.toDatum table.columns)])

instance : OfDatum TableDescriptor := ⟨ofDatum?⟩

instance : ToDatum TableDescriptor := ⟨toDatum⟩

end TableDescriptor

namespace AccountRecord

def ofDatum? : Decoder AccountRecord := fun format datum => do
  let fields ← Fields.ofDatum? ["id", "parent", "name"] format datum
  return {
    id := ← fields.required "id" .id
    parent := ← fields.optional "parent" .id
    name := ← fields.optional "name" .text }

def toDatum (account : AccountRecord) : Datum :=
  .record [("id", .ofId account.id), ("parent", .ofOption .ofId account.parent),
    ("name", .ofOption .text account.name)]

end AccountRecord

namespace HostRecord

def ofDatum? : Decoder HostRecord := fun format datum => do
  let fields ← Fields.ofDatum? ["id", "failover_parent", "replication_targets"] format datum
  return {
    id := ← fields.required "id" .id
    failoverParent := ← fields.optional "failover_parent" .id
    replicationTargets := ← fields.defaulted "replication_targets" ∅ (Decoder.set .id) }

def toDatum (host : HostRecord) : Datum :=
  .record [("id", .ofId host.id), ("failover_parent", .ofOption .ofId host.failoverParent),
    ("replication_targets", .ofSet .ofId host.replicationTargets)]

instance : OfDatum HostRecord := ⟨ofDatum?⟩

instance : ToDatum HostRecord := ⟨toDatum⟩

end HostRecord

namespace UserRole

def readScoped : Decoder UserRole := fun format datum => do
  let fields ← Fields.ofDatum? ["hosts", "permissions"] format datum
  return .scopedOperator (← fields.defaulted "hosts" ∅ (Decoder.set .id))
    (← fields.defaulted "permissions" ∅ (Decoder.set .text))

def readAccount : Decoder UserRole := fun format datum => do
  let fields ← Fields.ofDatum? ["account"] format datum
  return .tenant (← fields.required "account" .id)

def alternatives : List (String × Decoder UserRole) :=
  [("operator", fun _ _ => some .operator), ("scoped-operator", readScoped),
    ("tenant", readAccount)]

/-- Read a role that stands alone. -/
def ofDatum? : Decoder UserRole :=
  .tagged "role" alternatives

/-- Read a role off the record of its user. -/
def ofUserDatum? : Decoder UserRole :=
  .taggedWithin "role" alternatives

/-- The fields that a role adds to the record of its user. -/
def toFields : UserRole → List (String × Datum)
  | .operator => [("role", .text "operator")]
  | .scopedOperator hosts permissions =>
      [("role", .text "scoped-operator"), ("hosts", .ofSet .ofId hosts),
        ("permissions", .ofSet .text permissions)]
  | .tenant account => [("role", .text "tenant"), ("account", .ofId account)]

instance : OfDatum UserRole := ⟨ofDatum?⟩

end UserRole

namespace UserRecord

def ofDatum? : Decoder UserRecord := fun format datum => do
  let fields ← Fields.ofRecord? format datum
  return {
    username := ← fields.required "username" .text
    role := ← UserRole.ofUserDatum? format datum }

def toDatum (user : UserRecord) : Datum :=
  .record (("username", .text user.username) :: user.role.toFields)

end UserRecord

namespace RowRecord

def ofDatum? : Decoder RowRecord := fun format datum => do
  let fields ← Fields.ofDatum? ["table", "account", "host"] format datum
  return {
    table := ← fields.required "table" .text
    account := ← fields.optional "account" .id
    host := ← fields.optional "host" .id }

def toDatum (row : RowRecord) : Datum :=
  .record [("table", .text row.table), ("account", .ofOption .ofId row.account),
    ("host", .ofOption .ofId row.host)]

instance : OfDatum RowRecord := ⟨ofDatum?⟩

instance : ToDatum RowRecord := ⟨toDatum⟩

end RowRecord

namespace MetadataDocument

/-- The fields of a document, in their declared order. -/
def fieldNames : List String :=
  ["root", "accounts", "hosts", "users", "protocol_versions", "tables", "table_rules", "rows"]

def ofDatum? : Decoder MetadataDocument := fun format datum => do
  let fields ← Fields.ofDatum? fieldNames format datum
  return {
    root := ← fields.required "root" .id
    accounts := ← fields.defaulted "accounts" [] (.list AccountRecord.ofDatum?)
    hosts := ← fields.defaulted "hosts" [] (.list HostRecord.ofDatum?)
    users := ← fields.defaulted "users" [] (.list UserRecord.ofDatum?)
    protocolVersions := ← fields.defaulted "protocol_versions" [] (.list ProtocolVersion.ofDatum?)
    tables := ← fields.defaulted "tables" [] (.list TableDescriptor.ofDatum?)
    tableRules := ← fields.defaulted "table_rules" [] (.list TableRule.ofDatum?)
    rows := ← fields.defaulted "rows" [] (.list RowRecord.ofDatum?) }

def toDatum (doc : MetadataDocument) : Datum :=
  .record [("root", .ofId doc.root),
    ("accounts", .ofList AccountRecord.toDatum doc.accounts),
    ("hosts", .ofList HostRecord.toDatum doc.hosts),
    ("users", .ofList UserRecord.toDatum doc.users),
    ("protocol_versions", .ofList ProtocolVersion.toDatum doc.protocolVersions),
    ("tables", .ofList TableDescriptor.toDatum doc.tables),
    ("table_rules", .ofList TableRule.toDatum doc.tableRules),
    ("rows", .ofList RowRecord.toDatum doc.rows)]

instance : OfDatum MetadataDocument := ⟨ofDatum?⟩

instance : ToDatum MetadataDocument := ⟨toDatum⟩

end MetadataDocument

end ControlPlane
