/-
# Catalogs and views

A catalog is one consistent reading of the registry: versions with distinct tokens,
tables with distinct ids, columns with distinct ids within their table. A view is what
one version sees of it: the tables valid at its release, and the valid columns of each.
Unknown tokens are noticed only when a view has to look them up.
-/

import ControlPlane.Protocol.Enumeration
import ControlPlane.Protocol.Version

namespace ControlPlane

open Std (ExtTreeMap)

/-- What the registry of versions and descriptors says when it is read. -/
structure Registry where
  versions : Except Fault (List ProtocolVersion)
  /-- Tables in canonical order. -/
  tables : Except Fault (List TableDescriptor)

/-- Versions and descriptors as read at one time. -/
structure Catalog where
  versions : ExtTreeMap String ProtocolVersion
  index : ReleaseIndex
  tables : List TableDescriptor
deriving DecidableEq

/-- Tables and columns as one version counts them. -/
structure View where
  version : ProtocolVersion
  tables : Enumeration
  /-- One enumeration for each table that the version sees. -/
  columns : ExtTreeMap Int32 Enumeration
deriving DecidableEq

namespace Catalog

/-- Refuse a table id met before, or a column id met before in its table. -/
def checkTables (seen : List Int32) : List TableDescriptor → Except Fault Unit
  | [] => .ok ()
  | table :: rest =>
      if table.id ∈ seen then .error (.metadata (.duplicateTable table.id))
      else
        match firstRepeat? (table.columns.map (·.id)) with
        | some column => .error (.metadata (.duplicateColumn column table.name))
        | none => checkTables (table.id :: seen) rest

/-- A catalog of versions that are already indexed and of tables. -/
def assemble (versions : List ProtocolVersion) (index : ReleaseIndex)
    (tables : List TableDescriptor) : Except Fault Catalog := do
  checkTables [] tables
  return {
    versions := ExtTreeMap.ofList (versions.map fun version => (version.token, version))
    index
    tables }

/-- A catalog from the registry. -/
def load (registry : Registry) : Except Fault Catalog := do
  let versions ← registry.versions
  let index ← ReleaseIndex.ofVersions versions
  assemble versions index (← registry.tables)

/-- The ids of the columns valid at a release time, in their order. -/
def columnsAt (index : ReleaseIndex) (atMs : UInt64) :
    List ColumnDescriptor → Except Fault (List Int32)
  | [] => .ok []
  | column :: rest => do
      let covered ← index.covers column.validity atMs
      let ids ← columnsAt index atMs rest
      return if covered then column.id :: ids else ids

/-- The tables valid at a release time, in their order, with their valid columns. -/
def tablesAt (index : ReleaseIndex) (atMs : UInt64) :
    List TableDescriptor → Except Fault (List (Int32 × Enumeration))
  | [] => .ok []
  | table :: rest => do
      if ← index.covers table.validity atMs then
        let columns ← columnsAt index atMs table.columns
        return (table.id, ⟨columns⟩) :: (← tablesAt index atMs rest)
      else
        tablesAt index atMs rest

/-- What a version sees of the catalog. -/
def buildView (catalog : Catalog) (version : ProtocolVersion) : Except Fault View := do
  let entries ← tablesAt catalog.index version.releasedMs catalog.tables
  return {
    version
    tables := ⟨entries.map (·.1)⟩
    columns := ExtTreeMap.ofList entries }

/-- The view of a version that is named by its token. -/
def view (catalog : Catalog) (token : String) : Except Fault View :=
  match catalog.versions[token]? with
  | none => .error (.unknownProtocolVersion token)
  | some version => catalog.buildView version

/-- The name of a table, if the catalog has it. -/
def tableName? (catalog : Catalog) (table : Int32) : Option String :=
  (catalog.tables.find? (·.id == table)).map (·.name)

end Catalog

end ControlPlane
