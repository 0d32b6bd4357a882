/-
# What tenants see of each other's accounts

A tenant sees its own account and those that its walk meets. From each of these accounts the
walk goes on as it went when it came there from below: what is left of an ownership chain above
one of its accounts is the ownership chain of that account. This needs no assumption about the
tree, since a chain that ends below a parent that does not exist, or at a root that has a parent
itself, ends there from wherever it starts.

So an account that is seen sees no more than those who see it, and nobody below itself.
-/

import ControlPlane.Proofs.Access.Walk
import Mathlib.Order.Defs.Unbundled

namespace ControlPlane

open Std (ExtTreeSet)

namespace Hierarchy

variable {h : Hierarchy} {start account : AccountId} {before after : List AccountId}

/-! ## Chains of the accounts on a chain -/

/-- A way goes on from each of its accounts. -/
theorem Way.of_append (hway : h.Way start (before ++ account :: after)) :
    h.Way account (account :: after) where
  head?_eq := rfl
  links := (List.isChain_append.mp hway.links).2.1
  nodup := (List.nodup_append.mp hway.nodup).2.1

theorem IsOwnershipChain.of_append
    (hchain : h.IsOwnershipChain start (before ++ account :: after)) :
    h.IsOwnershipChain account (account :: after) := by
  obtain ⟨hway, hshort, last, hlast, hends⟩ := hchain
  have hfewer : (account :: after).length ≤ 12 := by
    rw [List.length_append] at hshort
    exact Nat.le_trans (Nat.le_add_left _ _) hshort
  have hlast' : (account :: after).getLast? = some last := by
    rwa [List.getLast?_append_of_ne_nil _ (List.cons_ne_nil account after)] at hlast
  exact ⟨hway.of_append, hfewer, last, hlast', hends⟩

/-- The chain of an account on a chain is the rest of that chain from there. -/
theorem walk_of_mem {chain : OwnershipChain} (hwalk : h.walk start = .ok chain)
    (hmem : account ∈ chain.accounts) :
    ∃ rest, h.walk account = .ok rest
      ∧ rest.accounts = chain.accounts.dropWhile (· != account) := by
  have hchain : h.IsOwnershipChain start chain.accounts :=
    isOwnershipChain_iff.mpr ⟨chain, hwalk, rfl⟩
  obtain ⟨before, after, hsplit, hnew⟩ := List.eq_append_cons_of_mem hmem
  rw [hsplit] at hchain ⊢
  have hskip (other : AccountId) (hother : other ∈ before) : (other != account) = true :=
    bne_iff_ne.mpr fun heq => hnew (heq ▸ hother)
  rw [List.dropWhile_append_of_pos hskip, List.dropWhile_cons_of_neg (by simp)]
  exact isOwnershipChain_iff.mp hchain.of_append

/-- The rest of a chain above an account other than its first is without the first. -/
theorem notMem_dropWhile {chain : OwnershipChain} (hwalk : h.walk start = .ok chain)
    (hne : account ≠ start) : start ∉ chain.accounts.dropWhile (· != account) := by
  obtain ⟨hway, -⟩ := isOwnershipChain_iff.mpr ⟨chain, hwalk, rfl⟩
  obtain ⟨above, habove⟩ := List.head?_eq_some_iff.mp hway.head?_eq
  have hnodup := hway.nodup
  rw [habove] at hnodup ⊢
  have hskip : (start != account) = true := bne_iff_ne.mpr hne.symm
  rw [List.dropWhile_cons_of_pos (p := (· != account)) hskip]
  intro hmem
  exact (List.nodup_cons.mp hnodup).1 ((List.dropWhile_suffix _).subset hmem)

/-! ## Who sees whom -/

/-- The scope of a tenant of an account. -/
def tenantScope (h : Hierarchy) (account : AccountId) : Except Fault AccessScope :=
  return .accounts (← h.walk account).toSet

/-- A tenant of an account sees the rows of another. -/
def Sees (h : Hierarchy) (account other : AccountId) : Prop :=
  ∃ scope, h.tenantScope account = .ok scope ∧ scope.allowsAccount other = true

theorem allowsAccount_toSet (chain : OwnershipChain) (other : AccountId) :
    (AccessScope.accounts chain.toSet).allowsAccount other = true ↔ other ∈ chain.accounts := by
  rw [AccessScope.allowsAccount, OwnershipChain.toSet, ExtTreeSet.contains_ofList,
    List.contains_iff_mem]

theorem tenantScope_eq_ok_iff {scope : AccessScope} :
    h.tenantScope account = .ok scope ↔
      ∃ chain, h.walk account = .ok chain ∧ .accounts chain.toSet = scope := by
  rw [tenantScope]
  cases h.walk account with
  | error fault => simp [bind, Except.bind]
  | ok chain => simp [bind, Except.bind, pure, Except.pure]

theorem sees_iff {other : AccountId} :
    h.Sees account other ↔ ∃ chain, h.walk account = .ok chain ∧ other ∈ chain.accounts := by
  simp only [Sees, tenantScope_eq_ok_iff]
  constructor
  · rintro ⟨_, ⟨chain, hwalk, rfl⟩, hallows⟩
    exact ⟨chain, hwalk, (allowsAccount_toSet chain other).mp hallows⟩
  · rintro ⟨chain, hwalk, hmem⟩
    exact ⟨_, ⟨chain, hwalk, rfl⟩, (allowsAccount_toSet chain other).mpr hmem⟩

theorem sees_self {chain : OwnershipChain} (hwalk : h.walk account = .ok chain) :
    h.Sees account account := by
  obtain ⟨hway, -⟩ := isOwnershipChain_iff.mpr ⟨chain, hwalk, rfl⟩
  exact sees_iff.mpr ⟨chain, hwalk, List.mem_of_head? hway.head?_eq⟩

/-- Whoever sees an account sees what is seen from there. -/
theorem Sees.trans {other further : AccountId} (hsees : h.Sees account other)
    (hfurther : h.Sees other further) : h.Sees account further := by
  obtain ⟨chain, hwalk, hmem⟩ := sees_iff.mp hsees
  obtain ⟨rest, hrest, haccounts⟩ := walk_of_mem hwalk hmem
  obtain ⟨rest', hrest', hmem'⟩ := sees_iff.mp hfurther
  obtain rfl : rest = rest' := Except.ok.inj (hrest.symm.trans hrest')
  rw [haccounts] at hmem'
  exact sees_iff.mpr ⟨chain, hwalk, (List.dropWhile_suffix _).subset hmem'⟩

/-- An account that is seen does not see back, unless it is the one that sees it. -/
theorem Sees.antisymm {other : AccountId} (hsees : h.Sees account other)
    (hback : h.Sees other account) : other = account := by
  by_contra hne
  obtain ⟨chain, hwalk, hmem⟩ := sees_iff.mp hsees
  obtain ⟨rest, hrest, haccounts⟩ := walk_of_mem hwalk hmem
  obtain ⟨rest', hrest', hmem'⟩ := sees_iff.mp hback
  obtain rfl : rest = rest' := Except.ok.inj (hrest.symm.trans hrest')
  rw [haccounts] at hmem'
  exact notMem_dropWhile hwalk hne hmem'

/-- The chain of an account on a chain is the rest of that chain. So what is seen from there is
seen from below, and nobody sees a descendant: among the accounts that have a chain, seeing is a
partial order. -/
theorem sees_isPartialOrder (h : Hierarchy) :
    (∀ (account : AccountId) (chain : OwnershipChain), h.walk account = .ok chain →
      ∀ above ∈ chain.accounts,
        (∃ rest, h.walk above = .ok rest
          ∧ rest.accounts = chain.accounts.dropWhile (· != above))
        ∧ (∀ other, h.Sees above other → h.Sees account other)
        ∧ (above ≠ account → ¬ h.Sees above account))
    ∧ IsPartialOrder {account // ∃ chain, h.walk account = .ok chain}
        (fun account other => h.Sees account other)
    ∧ ∀ (s : Snapshot) (rules : TableRules) (username : String) (account : AccountId)
        (options : ScopeOptions),
        Store.computeScope ⟨s, rules, true⟩ (.tenant username account) options
          = s.hierarchy.tenantScope account := by
  refine ⟨fun account chain hwalk above hmem => ?_, ?_, fun _ _ _ _ _ => rfl⟩
  · have hsees : h.Sees account above := sees_iff.mpr ⟨chain, hwalk, hmem⟩
    exact ⟨walk_of_mem hwalk hmem, fun other => hsees.trans,
      fun hne hback => hne (hsees.antisymm hback)⟩
  · exact {
      refl := fun ⟨_, chain, hwalk⟩ => sees_self hwalk
      trans := fun _ _ _ => Sees.trans
      antisymm := fun _ _ hsees hback => Subtype.ext (hsees.antisymm hback).symm }

/-- Every account lies below the one that is numbered before it; the first is the root. -/
def ladder : Hierarchy where
  root := ⟨1⟩
  parent account := some ⟨account.number - 1⟩
  contains _ := true

theorem second_sees_up_only :
    ladder.walk ⟨3⟩ = .ok ⟨⟨3⟩, [⟨2⟩, ⟨1⟩]⟩
    ∧ (∃ rest, ladder.walk ⟨2⟩ = .ok rest ∧ rest.accounts = [⟨2⟩, ⟨1⟩])
    ∧ ¬ ladder.Sees ⟨2⟩ ⟨3⟩ := by
  have hwalk : ladder.walk ⟨3⟩ = .ok ⟨⟨3⟩, [⟨2⟩, ⟨1⟩]⟩ := by decide
  obtain ⟨hrest, -, hback⟩ := ladder.sees_isPartialOrder.1 ⟨3⟩ _ hwalk ⟨2⟩ (by decide)
  exact ⟨hwalk, hrest, hback (by decide)⟩

end Hierarchy

end ControlPlane
