/-
# Resource classes

Cached data carries a class, and a committed change drops whole classes. A class
has a written tag; the row count of a table with the empty name has a tag too,
but no tag reads back as it.
-/

import ControlPlane.Fault

namespace ControlPlane

/-- What a cached value was derived from. -/
inductive ResourceClass
  /-- From a username to its identity. -/
  | identity
  /-- The account ownership tree. -/
  | tenantHierarchy
  /-- Failover and replication, and the hosts assigned to operators. -/
  | hostTopology
  /-- Protocol versions and the descriptors of tables and columns. -/
  | protocolMetadata
  /-- The number of rows of one table. -/
  | rowCount (table : String)
deriving DecidableEq

namespace ResourceClass

/-- What stands before the table in the tag of a row count. -/
def rowCountTag : String := "row-count:"

/-- The written form of a class. -/
def tag : ResourceClass → String
  | .identity => "identity"
  | .tenantHierarchy => "tenant-hierarchy"
  | .hostTopology => "host-topology"
  | .protocolMetadata => "protocol-metadata"
  | .rowCount table => rowCountTag ++ table

/-- Read a written form; a row count must name its table. -/
def ofTag? (text : String) : Option ResourceClass :=
  if text = "identity" then some .identity
  else if text = "tenant-hierarchy" then some .tenantHierarchy
  else if text = "host-topology" then some .hostTopology
  else if text = "protocol-metadata" then some .protocolMetadata
  else if rowCountTag.toList <+: text.toList then
    let table := text.toList.drop rowCountTag.toList.length
    if table = [] then none else some (.rowCount (String.ofList table))
  else none

/-- Read a written form, or say which text is none. -/
def ofTag (text : String) : Except Fault ResourceClass :=
  match ofTag? text with
  | some cls => .ok cls
  | none => .error (.invalidRequest ("unknown resource class: " ++ text))

/-- The position of a class's kind in the order of classes. -/
def rank : ResourceClass → Nat
  | .identity => 0
  | .tenantHierarchy => 1
  | .hostTopology => 2
  | .protocolMetadata => 3
  | .rowCount _ => 4

/-- The table whose rows are counted, empty for every other class. -/
def countedTable : ResourceClass → String
  | .rowCount table => table
  | _ => ""

theorem eq_of_rank_of_countedTable (a b : ResourceClass) (hrank : a.rank = b.rank)
    (htable : a.countedTable = b.countedTable) : a = b := by
  cases a <;> cases b <;> simp_all [rank, countedTable]

instance : Ord ResourceClass := ⟨compareThen (compareBy rank) (compareBy countedTable)⟩

instance : Std.TransOrd ResourceClass :=
  transCmp_compareThen (transCmp_compareBy rank) (transCmp_compareBy countedTable)

instance : Std.LawfulEqOrd ResourceClass :=
  have _ := transCmp_compareBy rank
  have _ := transCmp_compareBy countedTable
  lawfulEqCmp_compareThen inferInstance inferInstance fun a b h h' =>
    eq_of_rank_of_countedTable a b (Std.LawfulEqCmp.eq_of_compare h)
      (Std.LawfulEqCmp.eq_of_compare h')

end ResourceClass

end ControlPlane
