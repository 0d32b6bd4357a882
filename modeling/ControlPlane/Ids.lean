/-
# Platform identifiers

Accounts, hosts and connections are numbered with unsigned 64-bit words. The kind
of thing is part of the type, so an account number can never be used as a host
number; the order is the order of the numbers.
-/

import ControlPlane.Order

namespace ControlPlane

/-- What an identifier names. -/
inductive IdKind
  | account
  | host
  | connection

/-- The number of one account, host or connection. -/
structure Id (kind : IdKind) where
  number : UInt64
deriving DecidableEq

/-- A node of the ownership tree. -/
abbrev AccountId := Id .account

/-- A managed host. -/
abbrev HostId := Id .host

/-- A client connection. -/
abbrev ConnectionId := Id .connection

namespace Id

variable {kind : IdKind}

instance : Ord (Id kind) := ⟨compareBy Id.number⟩

instance : Std.TransOrd (Id kind) := transCmp_compareBy Id.number

instance : Std.LawfulEqOrd (Id kind) :=
  lawfulEqCmp_compareBy Id.number fun a b h => by cases a; cases b; exact congrArg Id.mk h

/-- The number in decimal. -/
def text (id : Id kind) : String :=
  toString id.number.toNat

instance : ToString (Id kind) := ⟨Id.text⟩

end Id

/-- How a connection is shown to a reader. -/
def connectionLabel (id : ConnectionId) : String :=
  "conn-" ++ id.text

end ControlPlane
