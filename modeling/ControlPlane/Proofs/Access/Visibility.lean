/-
# What the walk and the expansion find

The ownership walk and the host expansion are computed; here they are compared with
relations that say what they should find. Accounts are related by parent links: the
accounts above one are those that some number of links leads to. A host reveals itself and
its immediate relatives and nothing further.

Nothing is assumed of the tree or of the hosts. Where there is a cycle, or a chain is too
long, the walk reports that and finds nothing.
-/

import ControlPlane.Access.Resolver
import Mathlib.Logic.Relation

namespace ControlPlane

open Std (ExtTreeMap ExtTreeSet)

namespace Hierarchy

/-- A parent link that the walk follows: it starts below the root and ends at an account
that exists. -/
def Link (h : Hierarchy) (child parent : AccountId) : Prop :=
  child ≠ h.root ∧ h.parent child = some parent ∧ h.contains parent = true

/-- Some number of links leads from an account to another. -/
def Above (h : Hierarchy) : AccountId → AccountId → Prop :=
  Relation.ReflTransGen h.Link

variable {h : Hierarchy}

/-- An account that no link leaves has only itself above it. -/
theorem above_iff_of_no_link {current : AccountId} (hlast : ∀ parent, ¬ h.Link current parent)
    (account : AccountId) : h.Above current account ↔ account = current := by
  rw [Above, Relation.ReflTransGen.cases_head_iff]
  constructor
  · rintro (heq | ⟨parent, hlink, -⟩)
    · exact heq.symm
    · exact absurd hlink (hlast parent)
  · exact fun heq => .inl heq.symm

/-- A link leads to all that is above its end: an account has one parent at most. -/
theorem above_iff_of_link {current parent : AccountId} (hlink : h.Link current parent)
    (account : AccountId) :
    h.Above current account ↔ account = current ∨ h.Above parent account := by
  rw [Above, Relation.ReflTransGen.cases_head_iff]
  constructor
  · rintro (heq | ⟨other, hother, habove⟩)
    · exact .inl heq.symm
    · obtain rfl : parent = other := Option.some.inj (hlink.2.1.symm.trans hother.2.1)
      exact .inr habove
  · rintro (heq | habove)
    · exact .inl heq.symm
    · exact .inr ⟨parent, hlink, habove⟩

/-- A climb with hops left goes on from where a link to a new account ends. -/
theorem climb_of_link {current parent : AccountId} (hlink : h.Link current parent)
    {visited : List AccountId} (hnew : parent ∉ visited) (start : AccountId) (hops : Nat) :
    h.climb start (hops + 1) current visited =
      (h.climb start hops parent (parent :: visited)).map (parent :: ·) := by
  obtain ⟨hroot, hparent, hexists⟩ := hlink
  rw [climb, if_neg hroot, hparent]
  simp only [hexists, hnew, Bool.not_true, Bool.false_eq_true, if_false]
  cases h.climb start hops parent (parent :: visited) <;> rfl

/-- A climb ends where no link goes on, reports an inconsistency, or follows a link. -/
theorem climb_cases (h : Hierarchy) (start : AccountId) (hops : Nat) (current : AccountId)
    (visited : List AccountId) :
    ((∀ parent, ¬ h.Link current parent) ∧ h.climb start hops current visited = .ok [])
    ∨ (∃ fault : Fault, fault.isInconsistency = true
        ∧ h.climb start hops current visited = .error fault)
    ∨ (∃ parent fewer, h.Link current parent ∧ hops = fewer + 1
        ∧ h.climb start hops current visited
          = (h.climb start fewer parent (parent :: visited)).map (parent :: ·)) := by
  by_cases hroot : current = h.root
  · exact .inl ⟨fun parent hlink => hlink.1 hroot, by rw [climb, if_pos hroot]⟩
  cases hparent : h.parent current with
  | none =>
      exact .inr (.inl ⟨.detachedAccount start current, rfl, by rw [climb, if_neg hroot, hparent]⟩)
  | some parent =>
      cases hexists : h.contains parent with
      | false =>
          refine .inl ⟨fun other hlink => ?_, by simp [climb, hroot, hparent, hexists]⟩
          obtain rfl : parent = other := Option.some.inj (hparent.symm.trans hlink.2.1)
          exact absurd hlink.2.2 (by simp [hexists])
      | true =>
          by_cases hmet : parent ∈ visited
          · exact .inr (.inl ⟨.ownershipCycle start, rfl,
              by simp [climb, hroot, hparent, hexists, hmet]⟩)
          · cases hops with
            | zero =>
                exact .inr (.inl ⟨.chainTooDeep start maxChainDepth, rfl,
                  by simp [climb, hroot, hparent, hexists, hmet]⟩)
            | succ fewer =>
                have hlink : h.Link current parent := ⟨hroot, hparent, hexists⟩
                exact .inr (.inr ⟨parent, fewer, hlink, rfl, climb_of_link hlink hmet start fewer⟩)

/-- A climb that succeeds has met exactly what is above where it set out. -/
theorem mem_of_climb_eq_ok {start current : AccountId} {hops : Nat}
    {visited rest : List AccountId} (hclimb : h.climb start hops current visited = .ok rest)
    (account : AccountId) : account ∈ current :: rest ↔ h.Above current account := by
  induction hops generalizing current visited rest with
  | zero =>
      rcases h.climb_cases start 0 current visited with
        ⟨hlast, hok⟩ | ⟨fault, -, herror⟩ | ⟨parent, fewer, -, hops, -⟩
      · obtain rfl : rest = [] := Except.ok.inj (hclimb.symm.trans hok)
        rw [above_iff_of_no_link hlast, List.mem_singleton]
      · cases hclimb.symm.trans herror
      · cases hops
  | succ hops ih =>
      rcases h.climb_cases start (hops + 1) current visited with
        ⟨hlast, hok⟩ | ⟨fault, -, herror⟩ | ⟨parent, fewer, hlink, hfewer, hnext⟩
      · obtain rfl : rest = [] := Except.ok.inj (hclimb.symm.trans hok)
        rw [above_iff_of_no_link hlast, List.mem_singleton]
      · cases hclimb.symm.trans herror
      · obtain rfl : hops = fewer := Nat.succ.inj hfewer
        cases hrest : h.climb start hops parent (parent :: visited) with
        | error fault =>
            rw [hrest, hclimb] at hnext
            cases hnext
        | ok above =>
            rw [hrest, hclimb] at hnext
            obtain rfl : rest = parent :: above := Except.ok.inj hnext
            rw [above_iff_of_link hlink, List.mem_cons, ih hrest]

/-- What a climb reports is an inconsistency of the tree. -/
theorem isInconsistency_of_climb_eq_error {start current : AccountId} {hops : Nat}
    {visited : List AccountId} {fault : Fault}
    (hclimb : h.climb start hops current visited = .error fault) :
    fault.isInconsistency = true := by
  induction hops generalizing current visited with
  | zero =>
      rcases h.climb_cases start 0 current visited with
        ⟨-, hok⟩ | ⟨other, hinconsistency, herror⟩ | ⟨parent, fewer, -, hops, -⟩
      · cases hclimb.symm.trans hok
      · obtain rfl : fault = other := Except.error.inj (hclimb.symm.trans herror)
        exact hinconsistency
      · cases hops
  | succ hops ih =>
      rcases h.climb_cases start (hops + 1) current visited with
        ⟨-, hok⟩ | ⟨other, hinconsistency, herror⟩ | ⟨parent, fewer, -, hfewer, hnext⟩
      · cases hclimb.symm.trans hok
      · obtain rfl : fault = other := Except.error.inj (hclimb.symm.trans herror)
        exact hinconsistency
      · obtain rfl : hops = fewer := Nat.succ.inj hfewer
        cases hrest : h.climb start hops parent (parent :: visited) with
        | error other =>
            rw [hrest, hclimb] at hnext
            obtain rfl : fault = other := Except.error.inj hnext
            exact ih hrest
        | ok above =>
            rw [hrest, hclimb] at hnext
            cases hnext

/-- The walk finds what is above an account, if it finds anything. -/
theorem mem_toSet_of_walk_eq_ok {account other : AccountId} {chain : OwnershipChain}
    (hwalk : h.walk account = .ok chain) : other ∈ chain.toSet ↔ h.Above account other := by
  unfold walk at hwalk
  cases hclimb : h.climb account maxChainDepth account [account] with
  | error fault =>
      rw [hclimb] at hwalk
      cases hwalk
  | ok ancestors =>
      rw [hclimb] at hwalk
      obtain rfl : (⟨account, ancestors⟩ : OwnershipChain) = chain := Except.ok.inj hwalk
      rw [← mem_of_climb_eq_ok hclimb other]
      simp only [OwnershipChain.toSet, OwnershipChain.accounts, ExtTreeSet.mem_ofList,
        List.contains_iff_mem]

theorem isInconsistency_of_walk_eq_error {account : AccountId} {fault : Fault}
    (hwalk : h.walk account = .error fault) : fault.isInconsistency = true := by
  unfold walk at hwalk
  cases hclimb : h.climb account maxChainDepth account [account] with
  | error other =>
      rw [hclimb] at hwalk
      obtain rfl : other = fault := Except.error.inj hwalk
      exact isInconsistency_of_climb_eq_error hclimb
  | ok ancestors =>
      rw [hclimb] at hwalk
      cases hwalk

end Hierarchy

namespace Snapshot

/-- Whether a scoped operator to whom one host is assigned sees another through it. -/
def Reveals (s : Snapshot) (options : ScopeOptions) (host other : HostId) : Prop :=
  other = host
    ∨ (∃ record : HostRecord, s.hosts[host]? = some record
        ∧ record.failoverParent = some other)
    ∨ (∃ (key : HostId) (record : HostRecord), s.hosts[key]? = some record
        ∧ record.failoverParent = some host ∧ record.id = other)
    ∨ (options.includeReplication = true
        ∧ ∃ record : HostRecord, s.hosts[host]? = some record
          ∧ other ∈ record.replicationTargets)

theorem mem_relatives_iff {s : Snapshot} {options : ScopeOptions} {host other : HostId} :
    other ∈ s.topology.relatives options host ↔ s.Reveals options host other := by
  have hparent : other ∈ (s.topology.failoverParent host).toList ↔
      ∃ record : HostRecord, s.hosts[host]? = some record
        ∧ record.failoverParent = some other := by
    simp [topology, Option.bind_eq_some_iff]
  have hchildren : other ∈ (s.topology.failoverChildren host).toList ↔
      ∃ (key : HostId) (record : HostRecord), s.hosts[key]? = some record
        ∧ record.failoverParent = some host ∧ record.id = other := by
    simp [topology, ExtTreeMap.mem_toList_iff_getElem?_eq_some, and_assoc]
  have htargets : other ∈ (s.topology.replicationTargets host).toList ↔
      ∃ record : HostRecord, s.hosts[host]? = some record
        ∧ other ∈ record.replicationTargets := by
    cases hhost : s.hosts[host]? <;> simp [topology, hhost]
  unfold Reveals
  rw [← hparent, ← hchildren, ← htargets]
  cases hreplication : options.includeReplication <;>
    simp [Topology.relatives, hreplication]

/-- The expansion of an assignment is what its hosts reveal. -/
theorem mem_expand_iff {s : Snapshot} {options : ScopeOptions} {assigned : ExtTreeSet HostId}
    {other : HostId} :
    other ∈ s.topology.expand assigned options ↔
      ∃ host ∈ assigned, s.Reveals options host other := by
  simp only [Topology.expand, ExtTreeSet.mem_ofList, List.contains_iff_mem, List.mem_flatMap,
    ExtTreeSet.mem_toList, mem_relatives_iff]

end Snapshot

/-- An empty assignment is expanded without the store, to what the store would give. -/
theorem Store.expandHosts_eq {store : Store} {s : Snapshot} (hread : store.read = .ok s)
    (assigned : ExtTreeSet HostId) (options : ScopeOptions) :
    store.expandHosts assigned options = .ok (s.topology.expand assigned options) := by
  unfold expandHosts
  split
  · next hempty =>
      rw [ExtTreeSet.isEmpty_iff] at hempty
      rw [hempty]
      rfl
  · rw [hread]
    rfl

end ControlPlane
