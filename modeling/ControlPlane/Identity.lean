/-
# Identities

An identity is what a username stands for: platform staff with or without an
explicit set of hosts, or a customer account. It decides which rules apply to
every later request.
-/

import ControlPlane.Ids

namespace ControlPlane

open Std (ExtTreeSet)

/-- A requester's capability class together with what was assigned to it. -/
inductive Identity
  /-- Staff with unrestricted visibility. -/
  | operator (username : String)
  /-- Staff restricted to assigned hosts. -/
  | scopedOperator (username : String) (hosts : ExtTreeSet HostId)
      (permissions : ExtTreeSet String)
  /-- A customer of an account. -/
  | tenant (username : String) (account : AccountId)
deriving DecidableEq

/-- The capability class alone, as the user directory knows it. -/
inductive Principal
  | operator
  | scopedOperator
  | tenant (account : AccountId)
deriving DecidableEq

namespace Identity

def username : Identity → String
  | .operator username | .scopedOperator username _ _ | .tenant username _ => username

/-- Whether the identity belongs to the platform's staff. -/
def isStaff : Identity → Bool
  | .operator _ | .scopedOperator .. => true
  | .tenant .. => false

/-- Unrestricted operators hold every permission, tenants hold none. -/
def hasPermission (identity : Identity) (permission : String) : Bool :=
  match identity with
  | .operator _ => true
  | .scopedOperator _ _ permissions => permissions.contains permission
  | .tenant .. => false

/-- The subject under which data derived for the identity is cached. Tenants of
one account share it, whatever their usernames. -/
def cacheSubject : Identity → String
  | .operator username => "operator:" ++ username
  | .scopedOperator username _ _ => "scoped:" ++ username
  | .tenant _ account => "tenant:" ++ account.text

end Identity

end ControlPlane
