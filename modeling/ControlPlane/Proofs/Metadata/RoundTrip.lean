/-
# Documents are read as they were written

Every record of a document is read back from what is written of it, whatever is in it: fields that
are absent, empty sets, roles and scopings that share the record of their user or rule, validities
that share the record of their descriptor. It makes no difference in which order the fields stand.
The same holds of the text of a document, for every reader of JSON that understands what is
written on one line.
-/

import ControlPlane.Metadata.Codec
import ControlPlane.Metadata.Store
import ControlPlane.Proofs.Datum.JsonReader

namespace ControlPlane

open Decoder

/-! ## Records -/

theorem Datum.ofId_ne_null {kind : IdKind} (id : Id kind) : Datum.ofId id ≠ .null := nofun

theorem Datum.text_ne_null (text : String) : Datum.text text ≠ .null := nofun

theorem AccountRecord.reads : Reads ofDatum? toDatum := by
  intro format account datum halike
  obtain ⟨record, rfl, rfl, hshow⟩ := halike.exists_fields format
  have hid : record.required "id" .id = some account.id := hshow.required reads_id rfl
  have hparent : record.optional "parent" .id = some account.parent :=
    hshow.optional reads_id Datum.ofId_ne_null rfl
  have hname : record.optional "name" .text = some account.name :=
    hshow.optional reads_text Datum.text_ne_null rfl
  rw [ofDatum?, Fields.ofDatum?_record]
  simp [hid, hparent, hname]

theorem HostRecord.reads : Reads ofDatum? toDatum := by
  intro format host datum halike
  obtain ⟨record, rfl, rfl, hshow⟩ := halike.exists_fields format
  have hid : record.required "id" .id = some host.id := hshow.required reads_id rfl
  have hparent : record.optional "failover_parent" .id = some host.failoverParent :=
    hshow.optional reads_id Datum.ofId_ne_null rfl
  have htargets : record.defaulted "replication_targets" ∅ (Decoder.set .id) =
      some host.replicationTargets :=
    hshow.defaulted ∅ reads_id.set rfl
  rw [ofDatum?, Fields.ofDatum?_record]
  simp [hid, hparent, htargets]

/-- A role is read off the record of its user. -/
theorem UserRole.ofUserDatum?_eq_some {record : Fields} {user : UserRecord}
    (hshow : record.Show (("username", .text user.username) :: user.role.toFields)) :
    ofUserDatum? record.format (.record record.fields) = some user.role := by
  obtain ⟨username, role⟩ := user
  cases role with
  | operator => exact hshow.taggedWithin rfl rfl rfl
  | scopedOperator hosts permissions =>
      have hhosts : record.defaulted "hosts" ∅ (Decoder.set .id) = some hosts :=
        hshow.defaulted ∅ reads_id.set rfl
      have hpermissions : record.defaulted "permissions" ∅ (Decoder.set .text) = some permissions :=
        hshow.defaulted ∅ reads_text.set rfl
      refine hshow.taggedWithin rfl rfl ?_
      rw [readScoped, Fields.ofDatum?_record]
      simp [hhosts, hpermissions]
  | tenant account =>
      have haccount : record.required "account" .id = some account := hshow.required reads_id rfl
      refine hshow.taggedWithin rfl rfl ?_
      rw [readAccount, Fields.ofDatum?_record]
      simp [haccount]

theorem UserRecord.reads : Reads ofDatum? toDatum := by
  intro format user datum halike
  obtain ⟨record, rfl, rfl, hshow⟩ := halike.exists_fields format
  have husername : record.required "username" .text = some user.username :=
    hshow.required reads_text rfl
  rw [ofDatum?, Fields.ofRecord?_record]
  simp [husername, UserRole.ofUserDatum?_eq_some hshow]

theorem ProtocolVersion.reads : Reads ofDatum? toDatum := by
  intro format version datum halike
  obtain ⟨record, rfl, rfl, hshow⟩ := halike.exists_fields format
  have htoken : record.required "token" .text = some version.token :=
    hshow.required reads_text rfl
  have hreleased : record.required "released_ms" .word = some version.releasedMs :=
    hshow.required reads_word rfl
  rw [ofDatum?, Fields.ofDatum?_record]
  simp [htoken, hreleased]

/-- A validity is read off a record that shows its fields, among others. -/
theorem Validity.ofFields?_eq_some {record : Fields} {fields : List (String × Datum)}
    {validity : Validity} (hshow : record.Show fields)
    (hsince : fields.lookup "since" = some (.text validity.since))
    (hlast : fields.lookup "last" = some (.ofOption .text validity.last)) :
    ofFields? record = some validity := by
  have hsince' : record.required "since" .text = some validity.since :=
    hshow.required reads_text hsince
  have hlast' : record.optional "last" .text = some validity.last :=
    hshow.optional reads_text Datum.text_ne_null hlast
  simp [ofFields?, hsince', hlast']

theorem ColumnDescriptor.reads : Reads ofDatum? toDatum := by
  intro format column datum halike
  obtain ⟨record, rfl, rfl, hshow⟩ := halike.exists_fields format
  have hid : record.required "id" .int32 = some column.id := hshow.required reads_int32 rfl
  have hname : record.required "name" .text = some column.name := hshow.required reads_text rfl
  have hvalidity := Validity.ofFields?_eq_some hshow rfl rfl
  rw [ofDatum?, Fields.ofRecord?_record]
  simp [hid, hname, hvalidity]

theorem TableDescriptor.reads : Reads ofDatum? toDatum := by
  intro format table datum halike
  obtain ⟨record, rfl, rfl, hshow⟩ := halike.exists_fields format
  have hid : record.required "id" .int32 = some table.id := hshow.required reads_int32 rfl
  have hname : record.required "name" .text = some table.name := hshow.required reads_text rfl
  have hvalidity := Validity.ofFields?_eq_some hshow rfl rfl
  have hcolumns : record.defaulted "columns" [] (.list ColumnDescriptor.ofDatum?) =
      some table.columns :=
    hshow.defaulted [] ColumnDescriptor.reads.list rfl
  rw [ofDatum?, Fields.ofRecord?_record]
  simp [hid, hname, hvalidity, hcolumns]

/-- A scoping is read off the record of its rule. -/
theorem TableScoping.ofDatum?_eq_some {record : Fields} {rule : TableRule}
    (hshow : record.Show ([("table", .text rule.table)] ++ rule.scoping.toFields
      ++ [("include_replication", .bool rule.includeReplication)])) :
    ofDatum? record.format (.record record.fields) = some rule.scoping := by
  obtain ⟨table, scoping, includeReplication⟩ := rule
  cases scoping with
  | ownershipChain ownerColumn hostColumn =>
      have howner : record.required "owner_column" .text = some ownerColumn :=
        hshow.required reads_text rfl
      have hhost : record.optional "host_column" .text = some hostColumn :=
        hshow.optional reads_text Datum.text_ne_null rfl
      refine hshow.taggedWithin rfl rfl ?_
      rw [readOwnershipChain, Fields.ofRecord?_record]
      simp [howner, hhost]
  | hostTopology hostColumn =>
      have hhost : record.required "host_column" .text = some hostColumn :=
        hshow.required reads_text rfl
      refine hshow.taggedWithin rfl rfl ?_
      rw [readHostTopology, Fields.ofRecord?_record]
      simp [hhost]
  | unrestricted => exact hshow.taggedWithin rfl rfl rfl
  | permissionGated permission =>
      have hpermission : record.required "permission" .text = some permission :=
        hshow.required reads_text rfl
      refine hshow.taggedWithin rfl rfl ?_
      rw [readPermissionGated, Fields.ofRecord?_record]
      simp [hpermission]

theorem TableRule.reads : Reads ofDatum? toDatum := by
  intro format rule datum halike
  obtain ⟨record, rfl, rfl, hshow⟩ := halike.exists_fields format
  have htable : record.required "table" .text = some rule.table := hshow.required reads_text rfl
  have hreplication : record.defaulted "include_replication" false .bool =
      some rule.includeReplication := by
    obtain ⟨table, scoping, includeReplication⟩ := rule
    cases scoping <;> exact hshow.defaulted false reads_bool rfl
  rw [ofDatum?, Fields.ofRecord?_record]
  simp [htable, TableScoping.ofDatum?_eq_some hshow, hreplication]

theorem RowRecord.reads : Reads ofDatum? toDatum := by
  intro format row datum halike
  obtain ⟨record, rfl, rfl, hshow⟩ := halike.exists_fields format
  have htable : record.required "table" .text = some row.table := hshow.required reads_text rfl
  have haccount : record.optional "account" .id = some row.account :=
    hshow.optional reads_id Datum.ofId_ne_null rfl
  have hhost : record.optional "host" .id = some row.host :=
    hshow.optional reads_id Datum.ofId_ne_null rfl
  rw [ofDatum?, Fields.ofDatum?_record]
  simp [htable, haccount, hhost]

/-! ## Documents -/

theorem MetadataDocument.reads : Reads ofDatum? toDatum := by
  intro format doc datum halike
  obtain ⟨record, rfl, rfl, hshow⟩ := halike.exists_fields format
  have hroot : record.required "root" .id = some doc.root := hshow.required reads_id rfl
  have haccounts : record.defaulted "accounts" [] (.list AccountRecord.ofDatum?) =
      some doc.accounts :=
    hshow.defaulted [] AccountRecord.reads.list rfl
  have hhosts : record.defaulted "hosts" [] (.list HostRecord.ofDatum?) = some doc.hosts :=
    hshow.defaulted [] HostRecord.reads.list rfl
  have husers : record.defaulted "users" [] (.list UserRecord.ofDatum?) = some doc.users :=
    hshow.defaulted [] UserRecord.reads.list rfl
  have hversions : record.defaulted "protocol_versions" [] (.list ProtocolVersion.ofDatum?) =
      some doc.protocolVersions :=
    hshow.defaulted [] ProtocolVersion.reads.list rfl
  have htables : record.defaulted "tables" [] (.list TableDescriptor.ofDatum?) =
      some doc.tables :=
    hshow.defaulted [] TableDescriptor.reads.list rfl
  have hrules : record.defaulted "table_rules" [] (.list TableRule.ofDatum?) =
      some doc.tableRules :=
    hshow.defaulted [] TableRule.reads.list rfl
  have hrows : record.defaulted "rows" [] (.list RowRecord.ofDatum?) = some doc.rows :=
    hshow.defaulted [] RowRecord.reads.list rfl
  rw [ofDatum?, Fields.ofDatum?_record]
  simp [hroot, haccounts, hhosts, husers, hversions, htables, hrules, hrows]

/-! ## Texts -/

namespace Datum

variable {depth : Nat}

@[simp]
theorem isPlain_ofWord (value : UInt64) : (ofWord value).IsPlain depth :=
  .int ⟨by omega, Int.ofNat_lt.mpr value.toNat_lt⟩

@[simp]
theorem isPlain_ofInt32 (value : Int32) : (ofInt32 value).IsPlain depth := by
  have hlow := value.le_toInt
  have hhigh := value.toInt_lt
  exact .int ⟨by omega, by omega⟩

@[simp]
theorem isPlain_ofId {kind : IdKind} (id : Id kind) : (ofId id).IsPlain depth :=
  isPlain_ofWord id.number

theorem isPlain_ofOption {α : Type} {encode : α → Datum}
    (h : ∀ value, (encode value).IsPlain depth) (value : Option α) :
    (ofOption encode value).IsPlain depth := by
  cases value with
  | none => exact .null
  | some value => exact h value

theorem isPlain_ofList {α : Type} {encode : α → Datum}
    (h : ∀ value, (encode value).IsPlain depth) (values : List α) :
    (ofList encode values).IsPlain (depth + 1) := by
  refine .list fun item hitem => ?_
  obtain ⟨value, -, rfl⟩ := List.mem_map.mp hitem
  exact h value

theorem isPlain_ofSet {α : Type} [Ord α] [Std.TransOrd α] {encode : α → Datum}
    (h : ∀ value, (encode value).IsPlain depth) (values : Std.ExtTreeSet α) :
    (ofSet encode values).IsPlain (depth + 1) :=
  isPlain_ofList h values.toList

end Datum

open Datum

section

variable {depth : Nat}

theorem AccountRecord.isPlain (account : AccountRecord) :
    account.toDatum.IsPlain (depth + 1) := by
  refine .record (by simp) ?_
  simp [IsPlain.text, isPlain_ofOption]

theorem HostRecord.isPlain (host : HostRecord) : host.toDatum.IsPlain (depth + 2) := by
  refine .record (by simp) ?_
  simp [isPlain_ofOption, isPlain_ofSet]

theorem UserRecord.isPlain (user : UserRecord) : user.toDatum.IsPlain (depth + 2) := by
  obtain ⟨username, role⟩ := user
  refine .record ?_ ?_
  · cases role <;> simp [UserRole.toFields]
  · cases role <;> simp [UserRole.toFields, IsPlain.text, isPlain_ofSet]

theorem ProtocolVersion.isPlain (version : ProtocolVersion) :
    version.toDatum.IsPlain (depth + 1) := by
  refine .record (by simp) ?_
  simp [IsPlain.text]

theorem ColumnDescriptor.isPlain (column : ColumnDescriptor) :
    column.toDatum.IsPlain (depth + 1) := by
  refine .record (by simp [Validity.toFields]) ?_
  simp [Validity.toFields, IsPlain.text, isPlain_ofOption]

theorem TableDescriptor.isPlain (table : TableDescriptor) :
    table.toDatum.IsPlain (depth + 3) := by
  refine .record (by simp [Validity.toFields]) ?_
  simp [Validity.toFields, IsPlain.text, isPlain_ofOption, isPlain_ofList,
    ColumnDescriptor.isPlain]

theorem TableRule.isPlain (rule : TableRule) : rule.toDatum.IsPlain (depth + 1) := by
  obtain ⟨table, scoping, includeReplication⟩ := rule
  refine .record ?_ ?_
  · cases scoping <;> simp [TableScoping.toFields]
  · cases scoping <;>
      simp [TableScoping.toFields, IsPlain.text, IsPlain.bool, isPlain_ofOption]

theorem RowRecord.isPlain (row : RowRecord) : row.toDatum.IsPlain (depth + 1) := by
  refine .record (by simp) ?_
  simp [IsPlain.text, isPlain_ofOption]

end

namespace MetadataDocument

/-- How deep a document is: a record, a list of tables, a table, a list of columns, a column. -/
def depth : Nat := 5

theorem isPlain (doc : MetadataDocument) : doc.toDatum.IsPlain depth := by
  refine .record (by simp) ?_
  simp [isPlain_ofList, AccountRecord.isPlain, HostRecord.isPlain, UserRecord.isPlain,
    ProtocolVersion.isPlain, TableDescriptor.isPlain, TableRule.isPlain, RowRecord.isPlain]

/-- Every document is read back from its text. It is also read back from the data that it is
written as, in whatever order the fields of each record stand, such as the order of their names.
So whether a store can be made of what was read depends on the document alone. -/
theorem read_back_from_text {read : String → Option Datum} (hread : Json.ReadsBack depth read)
    (doc : MetadataDocument) :
    (read (Json.compactText doc.toDatum)).bind (ofDatum? .json) = some doc
    ∧ (∀ datum, doc.toDatum.Alike datum → ofDatum? .json datum = some doc)
    ∧ ofDatum? .json doc.toDatum.sortFields = some doc
    ∧ ∀ decoded, (read (Json.compactText doc.toDatum)).bind (ofDatum? .json) = some decoded →
      ((∃ store, Store.ofDocument decoded = .ok store)
        ↔ ∃ store, Store.ofDocument doc = .ok store) := by
  have halike (datum : Datum) (h : doc.toDatum.Alike datum) : ofDatum? .json datum = some doc :=
    reads .json doc datum h
  have htext : (read (Json.compactText doc.toDatum)).bind (ofDatum? .json) = some doc := by
    rw [hread doc.toDatum doc.isPlain, Option.bind_some]
    exact halike _ (.refl _)
  refine ⟨htext, halike, halike _ doc.isPlain.alike_sortFields, ?_⟩
  intro decoded hdecoded
  obtain rfl : doc = decoded := Option.some.inj (htext.symm.trans hdecoded)
  rfl

/-- A document with a record of every kind and, among its texts, some that have to be escaped. -/
def fullDocument : MetadataDocument where
  root := ⟨1⟩
  accounts := [{ id := ⟨1⟩, name := some "\"root\"\n" },
    { id := ⟨18446744073709551615⟩, parent := some ⟨1⟩, name := some "" }]
  hosts := [{ id := ⟨1⟩, failoverParent := some ⟨2⟩ }, { id := ⟨2⟩, replicationTargets := {⟨1⟩} }]
  users := [⟨"root", .operator⟩, ⟨"ops", .scopedOperator {⟨2⟩, ⟨1⟩} ∅⟩,
    ⟨"öps", .scopedOperator ∅ {"read\\write"}⟩, ⟨"ana", .tenant ⟨1⟩⟩]
  protocolVersions := [⟨"v1", 0⟩, ⟨"v2", 18446744073709551615⟩]
  tables := [{
    id := -2147483648
    name := "jobs"
    validity := { since := "v1", last := some "v2" }
    columns := [⟨1, "id", { since := "v1" }⟩] }]
  tableRules := [⟨"jobs", .ownershipChain "owner" (some "host"), true⟩,
    ⟨"invoices", .ownershipChain "owner" none, false⟩, ⟨"backups", .hostTopology "host", true⟩,
    ⟨"news", .unrestricted, false⟩, ⟨"audit", .permissionGated "audit", false⟩]
  rows := [{ table := "jobs", account := some ⟨1⟩ }, { table := "backups", host := some ⟨2⟩ }]

theorem read_back_from_text_of_fullDocument :
    Json.ReadsBack depth Json.read?
      ∧ (Json.read? (Json.compactText fullDocument.toDatum)).bind (ofDatum? .json) =
        some fullDocument
      ∧ ofDatum? .json fullDocument.toDatum.sortFields = some fullDocument
      ∧ ∃ store, Store.ofDocument fullDocument = .ok store := by
  obtain ⟨htext, -, hsorted, -⟩ := read_back_from_text (Json.readsBack_read? depth) fullDocument
  exact ⟨Json.readsBack_read? depth, htext, hsorted, _, rfl⟩

end MetadataDocument

end ControlPlane
