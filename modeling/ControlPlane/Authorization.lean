/-
# Authorization

Two questions are answered here: whether an identity's class may touch a table at
all, which needs no metadata, and which row filter a resolved scope becomes. A
scope that the table's columns cannot express is refused as if there were no rule.
-/

import ControlPlane.Identity
import ControlPlane.TableRule

namespace ControlPlane

open Std (ExtTreeSet)

/-- The row filter handed to the query layer. -/
inductive QueryScope
  | all
  | accountIn (column : String) (accounts : ExtTreeSet AccountId)
  | hostIn (column : String) (hosts : ExtTreeSet HostId)
deriving DecidableEq

/-- Whether the identity's class may touch the table. -/
def TableRule.admits (rule : TableRule) (identity : Identity) : Bool :=
  match rule.scoping, identity with
  | .unrestricted, _ => true
  | _, .operator _ => true
  | .ownershipChain _ _, .tenant .. => true
  | .ownershipChain _ hostColumn, .scopedOperator .. => hostColumn.isSome
  | .hostTopology _, .scopedOperator .. => true
  | .hostTopology _, .tenant .. => false
  | .permissionGated permission, identity => identity.hasPermission permission

/-- The filter that a scope becomes on the table. -/
def TableRule.parameterize (rule : TableRule) (scope : AccessScope) : Except Fault QueryScope :=
  match rule.scoping, scope with
  | .unrestricted, _ => .ok .all
  | .permissionGated _, _ => .ok .all
  | _, .unrestricted => .ok .all
  | .ownershipChain ownerColumn _, .accounts ids => .ok (.accountIn ownerColumn ids)
  | .ownershipChain _ (some hostColumn), .hosts ids => .ok (.hostIn hostColumn ids)
  | .hostTopology hostColumn, .hosts ids => .ok (.hostIn hostColumn ids)
  | .ownershipChain _ none, .hosts _ => .error .noAccess
  | .hostTopology _, .accounts _ => .error .noAccess

end ControlPlane
