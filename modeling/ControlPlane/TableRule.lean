/-
# Table rules

Every table declares how its rows are scoped. A rule set holds at most one rule
per table; two rules for one table are refused, they do not replace each other.
-/

import ControlPlane.Fault
import ControlPlane.Scope

namespace ControlPlane

open Std (ExtTreeMap)

/-- How the rows of a table are scoped. -/
inductive TableScoping
  /-- Rows belong to an account, and may also live on a host. -/
  | ownershipChain (ownerColumn : String) (hostColumn : Option String)
  /-- Rows belong to a host; only staff may see them. -/
  | hostTopology (hostColumn : String)
  /-- Every identity may see every row. -/
  | unrestricted
  /-- Staff who hold a permission may see every row. -/
  | permissionGated (permission : String)
deriving DecidableEq

/-- The authorization rule of one table. -/
structure TableRule where
  table : String
  scoping : TableScoping
  includeReplication : Bool := false
deriving DecidableEq

namespace TableRule

def scopeOptions (rule : TableRule) : ScopeOptions :=
  { includeReplication := rule.includeReplication }

/-- Whether a scope filters the rows at all. -/
def isScoped (rule : TableRule) : Bool :=
  match rule.scoping with
  | .ownershipChain .. | .hostTopology _ => true
  | .unrestricted | .permissionGated _ => false

end TableRule

/-- Rules by table. -/
structure TableRules where
  byTable : ExtTreeMap String TableRule := ∅
deriving DecidableEq

namespace TableRules

/-- Collect rules, refusing a second rule for a table. -/
def ofList (rules : List TableRule) : Except Fault TableRules :=
  rules.foldlM (fun known rule =>
    if known.byTable.contains rule.table then
      .error (.metadata (.duplicateRule rule.table))
    else
      .ok { byTable := known.byTable.insert rule.table rule }) {}

def get? (rules : TableRules) (table : String) : Option TableRule :=
  rules.byTable[table]?

/-- All rules, in the order of their tables. -/
def toList (rules : TableRules) : List TableRule :=
  rules.byTable.toList.map (·.2)

def size (rules : TableRules) : Nat :=
  rules.byTable.size

end TableRules

end ControlPlane
