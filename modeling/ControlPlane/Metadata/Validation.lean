/-
# Validation of metadata documents

A document is consistent if no identifier is declared twice, the root and only the root
has no parent, and every host or version that is referred to is declared. Parents of
other accounts may be missing. The first offence in a fixed order is the one reported.
-/

import ControlPlane.Metadata.Document
import ControlPlane.Report

namespace ControlPlane

/-- A descriptor as named in a complaint. -/
inductive Described
  | table (name : String)
  | column (tableName name : String)
deriving DecidableEq

def Described.label : Described → String
  | .table name => "table " ++ name
  | .column tableName name => s!"column {tableName}.{name}"

/-- Why a document is not consistent. -/
inductive DocumentError
  | duplicateAccount (account : AccountId)
  | rootUndefined (root : AccountId)
  | rootHasParent (root : AccountId)
  | parentlessAccount (account : AccountId)
  | duplicateHost (host : HostId)
  | unknownHost (host other : HostId)
  | duplicateUser (username : String)
  | duplicateVersion (cause : Fault)
  | duplicateTable (table : Int32)
  | unknownVersion (descriptor : Described) (token : String)
  | duplicateColumn (column : Int32) (tableName : String)
  | duplicateRule (cause : Fault)
deriving DecidableEq

def DocumentError.message : DocumentError → String
  | .duplicateAccount account => s!"duplicate account id {account}"
  | .rootUndefined root => s!"root account {root} is not defined"
  | .rootHasParent root => s!"root account {root} must not have a parent"
  | .parentlessAccount account => s!"account {account} has no parent but is not the root"
  | .duplicateHost host => s!"duplicate host id {host}"
  | .unknownHost host other => s!"host {host} references unknown host {other}"
  | .duplicateUser username => s!"duplicate user {username}"
  | .duplicateVersion cause => cause.message
  | .duplicateTable table => s!"duplicate table id {table.toInt}"
  | .unknownVersion descriptor token =>
      s!"{descriptor.label} references unknown protocol version {token}"
  | .duplicateColumn column tableName =>
      s!"duplicate column id {column.toInt} in table {tableName}"
  | .duplicateRule cause => cause.message

def DocumentError.report (cause : DocumentError) : Report :=
  .because cause.message

/-- The hosts that a host refers to, the one it fails over to first. -/
def HostRecord.related (host : HostRecord) : List HostId :=
  host.failoverParent.toList ++ host.replicationTargets.toList

/-- The tokens that a validity refers to, the lower one first. -/
def Validity.tokens (validity : Validity) : List String :=
  validity.since :: validity.last.toList

namespace MetadataDocument

/-- The root is declared and has no parent, all other accounts have one. -/
def checkAccounts (doc : MetadataDocument) : Except DocumentError Unit := do
  refuse (firstRepeat? (doc.accounts.map (·.id))) .duplicateAccount
  match doc.accounts.find? (·.id == doc.root) with
  | none => .error (.rootUndefined doc.root)
  | some root =>
      if root.parent.isSome then .error (.rootHasParent doc.root)
      else
        refuse (doc.accounts.find? fun account => account.id != doc.root && account.parent.isNone)
          fun account => .parentlessAccount account.id

/-- The first reference to a host that is not declared: who refers, and to whom. -/
def unknownHost? (doc : MetadataDocument) : Option (HostId × HostId) :=
  let declared := doc.hosts.map (·.id)
  doc.hosts.findSome? fun host =>
    (host.related.find? fun other => !declared.contains other).map (Prod.mk host.id)

def checkHosts (doc : MetadataDocument) : Except DocumentError Unit := do
  refuse (firstRepeat? (doc.hosts.map (·.id))) .duplicateHost
  refuse doc.unknownHost? fun reference => .unknownHost reference.1 reference.2

/-- Every version that a descriptor names is known. -/
def checkValidity (index : ReleaseIndex) (descriptor : Described) (validity : Validity) :
    Except DocumentError Unit :=
  refuse (validity.tokens.find? fun token => (index.releasedMs? token).isNone)
    (.unknownVersion descriptor)

def checkColumns (index : ReleaseIndex) (tableName : String) (seen : List Int32) :
    List ColumnDescriptor → Except DocumentError Unit
  | [] => .ok ()
  | column :: rest => do
      if column.id ∈ seen then throw (.duplicateColumn column.id tableName)
      checkValidity index (.column tableName column.name) column.validity
      checkColumns index tableName (column.id :: seen) rest

def checkTables (index : ReleaseIndex) (seen : List Int32) :
    List TableDescriptor → Except DocumentError Unit
  | [] => .ok ()
  | table :: rest => do
      if table.id ∈ seen then throw (.duplicateTable table.id)
      checkValidity index (.table table.name) table.validity
      checkColumns index table.name [] table.columns
      checkTables index (table.id :: seen) rest

/-- Check the whole document, part by part. -/
def validate (doc : MetadataDocument) : Except DocumentError Unit := do
  doc.checkAccounts
  doc.checkHosts
  refuse (firstRepeat? (doc.users.map (·.username))) .duplicateUser
  let index ← (ReleaseIndex.ofVersions doc.protocolVersions).mapError .duplicateVersion
  checkTables index [] doc.tables
  let _ ← (TableRules.ofList doc.tableRules).mapError .duplicateRule

end MetadataDocument

end ControlPlane
