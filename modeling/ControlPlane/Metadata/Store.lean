/-
# The metadata store

The store answers for accounts, hosts, users, versions and rows from one snapshot. A
snapshot may be changed in ways that no validation would accept. While the store is
unavailable every question to it fails in the same way, and changes still go through.
-/

import ControlPlane.Access.Ownership
import ControlPlane.Access.Topology
import ControlPlane.Metadata.Validation
import ControlPlane.Protocol.Catalog

namespace ControlPlane

open Std (ExtTreeMap ExtTreeSet)

/-- The contents of the store. -/
structure Snapshot where
  root : AccountId
  /-- Accounts and their parents. -/
  accounts : ExtTreeMap AccountId (Option AccountId) := ∅
  hosts : ExtTreeMap HostId HostRecord := ∅
  users : ExtTreeMap String UserRole := ∅
  versions : List ProtocolVersion := []
  tables : List TableDescriptor := []
  rows : List RowRecord := []
deriving DecidableEq

namespace Snapshot

/-- The lists of a document, indexed. -/
def ofDocument (doc : MetadataDocument) : Snapshot where
  root := doc.root
  accounts := ExtTreeMap.ofList (doc.accounts.map fun account => (account.id, account.parent))
  hosts := ExtTreeMap.ofList (doc.hosts.map fun host => (host.id, host))
  users := ExtTreeMap.ofList (doc.users.map fun user => (user.username, user.role))
  versions := doc.protocolVersions
  tables := doc.tables
  rows := doc.rows

def hierarchy (s : Snapshot) : Hierarchy where
  root := s.root
  parent account := s.accounts.getD account none
  contains account := s.accounts.contains account

def topology (s : Snapshot) : Topology where
  failoverParent host := s.hosts[host]?.bind (·.failoverParent)
  failoverChildren host :=
    ExtTreeSet.ofList
      ((s.hosts.toList.filter fun entry => entry.2.failoverParent == some host).map (·.2.id))
  replicationTargets host := (s.hosts[host]?.map (·.replicationTargets)).getD ∅

/-- The capability class of a user. -/
def classify (s : Snapshot) (username : String) : Option Principal :=
  s.users[username]?.map fun
    | .operator => .operator
    | .scopedOperator .. => .scopedOperator
    | .tenant account => .tenant account

/-- The hosts assigned to a scoped operator; none for anyone else. -/
def assignedHosts (s : Snapshot) (username : String) : ExtTreeSet HostId :=
  match s.users[username]? with
  | some (.scopedOperator hosts _) => hosts
  | _ => ∅

/-- The permissions of a scoped operator; none for anyone else. -/
def permissions (s : Snapshot) (username : String) : ExtTreeSet String :=
  match s.users[username]? with
  | some (.scopedOperator _ permissions) => permissions
  | _ => ∅

/-- How many rows of a table a filter lets through. -/
def rowCount (s : Snapshot) (table : String) (query : QueryScope) : UInt64 :=
  UInt64.ofNat (s.rows.countP fun row => row.table == table && row.isVisible query)

end Snapshot

/-- The store: its contents, its rules, and whether it can be reached. -/
structure Store where
  snapshot : Snapshot
  rules : TableRules
  isAvailable : Bool := true
deriving DecidableEq

namespace Store

/-- A store with the contents of a consistent document. -/
def ofDocument (doc : MetadataDocument) : Except DocumentError Store := do
  doc.validate
  let rules ← (TableRules.ofList doc.tableRules).mapError .duplicateRule
  return { snapshot := .ofDocument doc, rules }

/-- The contents, if the store can be reached. -/
def read (store : Store) : Except Fault Snapshot :=
  if store.isAvailable then .ok store.snapshot else .error (.metadata .storeUnavailable)

def registry (store : Store) : Registry where
  versions := store.read.map (·.versions)
  tables := store.read.map (·.tables)

/-- A change to the contents. -/
inductive Change
  | upsertAccount (id : AccountId) (parent : Option AccountId)
  /-- Accounts below keep naming the removed one as their parent. -/
  | removeAccount (id : AccountId)
  | upsertHost (host : HostRecord)
  | upsertUser (username : String) (role : UserRole)
  | removeUser (username : String)
  /-- A position beyond the end means the end. -/
  | insertTable (position : Nat) (table : TableDescriptor)
  | addVersion (version : ProtocolVersion)
  | addRow (row : RowRecord)

/-- The contents after a change. -/
def Change.apply (change : Change) (s : Snapshot) : Snapshot :=
  match change with
  | .upsertAccount id parent => { s with accounts := s.accounts.insert id parent }
  | .removeAccount id => { s with accounts := s.accounts.erase id }
  | .upsertHost host => { s with hosts := s.hosts.insert host.id host }
  | .upsertUser username role => { s with users := s.users.insert username role }
  | .removeUser username => { s with users := s.users.erase username }
  | .insertTable position table =>
      { s with tables := s.tables.take position ++ table :: s.tables.drop position }
  | .addVersion version => { s with versions := s.versions ++ [version] }
  | .addRow row => { s with rows := s.rows ++ [row] }

/-- Whether a change would take something away that is there. -/
def Change.removes (change : Change) (s : Snapshot) : Bool :=
  match change with
  | .removeAccount id => s.accounts.contains id
  | .removeUser username => s.users.contains username
  | _ => false

def change (store : Store) (change : Change) : Store :=
  { store with snapshot := change.apply store.snapshot }

end Store

end ControlPlane
