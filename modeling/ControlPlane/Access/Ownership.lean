/-
# Ownership chains

A tenant sees rows of its own account and of the accounts above it. The walk upwards
starts at the tenant and ends at the root, or below a parent that does not exist. It
takes at most eleven hops; a longer chain, a cycle and a parentless account below the
root are reported as inconsistencies and never cut short.
-/

import ControlPlane.Fault

namespace ControlPlane

/-- The ownership tree as its owner describes it. A parent may be named that does not
exist, and nothing rules out cycles. -/
structure Hierarchy where
  root : AccountId
  parent : AccountId → Option AccountId
  contains : AccountId → Bool

/-- How many parent hops an ownership chain may take. -/
def maxChainDepth : Nat := 11

/-- The way from a tenant up through its ancestors. -/
structure OwnershipChain where
  tenant : AccountId
  ancestors : List AccountId
deriving DecidableEq

namespace OwnershipChain

/-- All accounts, the tenant first. -/
def accounts (chain : OwnershipChain) : List AccountId :=
  chain.tenant :: chain.ancestors

/-- The account where the walk ended. -/
def terminal (chain : OwnershipChain) : AccountId :=
  chain.ancestors.getLastD chain.tenant

def contains (chain : OwnershipChain) (account : AccountId) : Bool :=
  chain.accounts.contains account

def size (chain : OwnershipChain) : Nat :=
  chain.accounts.length

/-- The visible accounts. -/
def toSet (chain : OwnershipChain) : Std.ExtTreeSet AccountId :=
  Std.ExtTreeSet.ofList chain.accounts

end OwnershipChain

namespace Hierarchy

/-- The accounts above `current` on the walk from `start`, which has met `visited` so far
and may take `hops` more. -/
def climb (h : Hierarchy) (start : AccountId) (hops : Nat) (current : AccountId)
    (visited : List AccountId) : Except Fault (List AccountId) :=
  if current = h.root then .ok []
  else
    match h.parent current with
    | none => .error (.detachedAccount start current)
    | some parent =>
        if !h.contains parent then .ok []
        else if parent ∈ visited then .error (.ownershipCycle start)
        else
          match hops with
          | 0 => .error (.chainTooDeep start maxChainDepth)
          | hops + 1 => do
              let rest ← h.climb start hops parent (parent :: visited)
              return parent :: rest

/-- The ownership chain of an account, which need not exist itself. -/
def walk (h : Hierarchy) (account : AccountId) : Except Fault OwnershipChain := do
  let ancestors ← h.climb account maxChainDepth account [account]
  return ⟨account, ancestors⟩

end Hierarchy

end ControlPlane
