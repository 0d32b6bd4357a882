/-
# Protocol versions and descriptors

A version is an opaque token with a release time, and only release times are ever
compared. Tables and columns are valid from the release of one version up to, but not
including, the release of another.
-/

import ControlPlane.Fault
import ControlPlane.Repeat

namespace ControlPlane

open Std (ExtTreeMap)

/-- A version that clients may speak. -/
structure ProtocolVersion where
  token : String
  /-- Release time in milliseconds. -/
  releasedMs : UInt64
deriving DecidableEq

/-- When a descriptor is valid, in version tokens. -/
structure Validity where
  since : String
  /-- The first version without the descriptor, if there is one. -/
  last : Option String := none
deriving DecidableEq

structure ColumnDescriptor where
  id : Int32
  name : String
  validity : Validity
deriving DecidableEq

structure TableDescriptor where
  id : Int32
  name : String
  validity : Validity
  columns : List ColumnDescriptor := []
deriving DecidableEq

/-- Release times by token. -/
structure ReleaseIndex where
  released : ExtTreeMap String UInt64 := ∅
deriving DecidableEq

namespace ReleaseIndex

/-- Index versions, refusing a second version with a token. -/
def ofVersions (versions : List ProtocolVersion) : Except Fault ReleaseIndex :=
  versions.foldlM (fun index version =>
    if index.released.contains version.token then
      .error (.metadata (.duplicateVersion version.token))
    else
      .ok { released := index.released.insert version.token version.releasedMs }) {}

def releasedMs? (index : ReleaseIndex) (token : String) : Option UInt64 :=
  index.released[token]?

/-- The release time of a token that a descriptor names. -/
def resolve (index : ReleaseIndex) (token : String) : Except Fault UInt64 :=
  match index.releasedMs? token with
  | some ms => .ok ms
  | none => .error (.metadata (.unknownVersion token))

/-- Whether a descriptor is valid at a release time. The upper token is looked up only
from the lower one on. -/
def covers (index : ReleaseIndex) (validity : Validity) (atMs : UInt64) : Except Fault Bool := do
  let since ← index.resolve validity.since
  if atMs < since then return false
  match validity.last with
  | none => return true
  | some last => return decide (atMs < (← index.resolve last))

def size (index : ReleaseIndex) : Nat :=
  index.released.size

end ReleaseIndex

end ControlPlane
