/-
# Metadata documents

A document lists what the platform knows: accounts, hosts, users, versions, tables,
authorization rules and rows. It says nothing about whether its references hold; that
is for validation.
-/

import ControlPlane.Authorization
import ControlPlane.Protocol.Version

namespace ControlPlane

open Std (ExtTreeSet)

/-- A node of the ownership tree. -/
structure AccountRecord where
  id : AccountId
  parent : Option AccountId := none
  name : Option String := none
deriving DecidableEq

structure HostRecord where
  id : HostId
  /-- The host that takes over when this one fails. -/
  failoverParent : Option HostId := none
  /-- Hosts that receive this one's backups. -/
  replicationTargets : ExtTreeSet HostId := ∅
deriving DecidableEq

/-- The capability class of a user and what is assigned with it. -/
inductive UserRole
  | operator
  | scopedOperator (hosts : ExtTreeSet HostId) (permissions : ExtTreeSet String)
  | tenant (account : AccountId)
deriving DecidableEq

structure UserRecord where
  username : String
  role : UserRole
deriving DecidableEq

/-- A row of a table, reduced to who owns it and where it lives. -/
structure RowRecord where
  table : String
  account : Option AccountId := none
  host : Option HostId := none
deriving DecidableEq

/-- Whether a filter lets a row through. A row without the filtered value is hidden. -/
def RowRecord.isVisible (row : RowRecord) (query : QueryScope) : Bool :=
  match query with
  | .all => true
  | .accountIn _ accounts => row.account.any fun account => accounts.contains account
  | .hostIn _ hosts => row.host.any fun host => hosts.contains host

structure MetadataDocument where
  root : AccountId
  accounts : List AccountRecord := []
  hosts : List HostRecord := []
  users : List UserRecord := []
  protocolVersions : List ProtocolVersion := []
  /-- Tables in canonical order. -/
  tables : List TableDescriptor := []
  tableRules : List TableRule := []
  rows : List RowRecord := []
deriving DecidableEq

end ControlPlane
