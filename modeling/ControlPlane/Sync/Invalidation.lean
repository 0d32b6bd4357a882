/-
# Invalidation rules

A committed change names the table it touched. The rules say which classes of cached
data depend on a table; the table's own row count always does.
-/

import ControlPlane.ResourceClass

namespace ControlPlane

open Std (ExtTreeMap ExtTreeSet)

/-- A committed change. -/
structure InvalidationEvent where
  table : String
  /-- Accounts that own the changed rows. -/
  ownerAccounts : ExtTreeSet AccountId := ∅
  /-- Hosts on which the changed rows live. -/
  affectedHosts : ExtTreeSet HostId := ∅
deriving DecidableEq

namespace InvalidationEvent

def withOwners (event : InvalidationEvent) (owners : List AccountId) : InvalidationEvent :=
  { event with ownerAccounts := event.ownerAccounts.insertMany owners }

def withHosts (event : InvalidationEvent) (hosts : List HostId) : InvalidationEvent :=
  { event with affectedHosts := event.affectedHosts.insertMany hosts }

end InvalidationEvent

/-- The classes that depend on each table. -/
structure InvalidationRules where
  byTable : ExtTreeMap String (ExtTreeSet ResourceClass) := ∅
deriving DecidableEq

namespace InvalidationRules

/-- Further classes that depend on a table. -/
def add (rules : InvalidationRules) (table : String) (classes : List ResourceClass) :
    InvalidationRules where
  byTable := rules.byTable.alter table fun known => some ((known.getD ∅).insertMany classes)

/-- Further dependencies, table by table. -/
def addAll (rules : InvalidationRules) (extra : List (String × List ResourceClass)) :
    InvalidationRules :=
  extra.foldl (fun rules entry => rules.add entry.1 entry.2) rules

/-- What depends on the platform's own metadata tables. -/
def builtinDependencies : List (String × List ResourceClass) :=
  [("accounts", [.tenantHierarchy, .identity]),
    ("users", [.identity, .hostTopology]),
    ("operators", [.identity, .hostTopology]),
    ("operator_hosts", [.identity, .hostTopology]),
    ("servers", [.hostTopology]),
    ("server_failover", [.hostTopology]),
    ("server_replication", [.hostTopology]),
    ("protocol_versions", [.protocolMetadata]),
    ("table_descriptors", [.protocolMetadata]),
    ("column_descriptors", [.protocolMetadata])]

def builtin : InvalidationRules :=
  ({} : InvalidationRules).addAll builtinDependencies

/-- Every class that a change to a table invalidates. -/
def classesFor (rules : InvalidationRules) (table : String) : ExtTreeSet ResourceClass :=
  (rules.byTable.getD table ∅).insert (.rowCount table)

end InvalidationRules

end ControlPlane
