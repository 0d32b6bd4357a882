/-
# Access scopes

A scope is the set of accounts, or of hosts, whose rows an identity may see. The
two kinds do not mix: a set of accounts says nothing about hosts.
-/

import ControlPlane.Ids

namespace ControlPlane

open Std (ExtTreeSet)

/-- What an identity may see. -/
inductive AccessScope
  | unrestricted
  | accounts (ids : ExtTreeSet AccountId)
  | hosts (ids : ExtTreeSet HostId)
deriving DecidableEq

namespace AccessScope

def isUnrestricted : AccessScope → Bool
  | .unrestricted => true
  | _ => false

/-- Whether rows owned by an account are visible. -/
def allowsAccount (scope : AccessScope) (account : AccountId) : Bool :=
  match scope with
  | .unrestricted => true
  | .accounts ids => ids.contains account
  | .hosts _ => false

/-- Whether rows placed on a host are visible. -/
def allowsHost (scope : AccessScope) (host : HostId) : Bool :=
  match scope with
  | .unrestricted => true
  | .accounts _ => false
  | .hosts ids => ids.contains host

end AccessScope

/-- How a scope is to be computed. -/
structure ScopeOptions where
  /-- Whether replication targets count among a scoped operator's hosts. -/
  includeReplication : Bool := false
deriving DecidableEq

end ControlPlane
