/-
# What the ownership walk comes to

The walk ends at the root, below a parent that does not exist, at an inconsistency of the tree,
or at its bound. Each of these ends is said here in terms of the accounts that parent links lead
through, without the walk. The walk is then shown to come to exactly what is said: what it finds
is so (`climb_outcome`), and where something is so the walk goes there (`climb_of_isChain`). Since
it comes to one thing only, the ends exclude each other.

The tree is arbitrary. It may have cycles, parents that are missing and any depth.
-/

import ControlPlane.Proofs.Access.Visibility
import Mathlib.Data.List.Chain
import Mathlib.Data.List.Nodup

namespace ControlPlane

namespace Hierarchy

/-! ## Ways up the tree -/

/-- Distinct accounts, from a start upwards. Each but the first exists, and each but the last
lies below the root. -/
structure Way (h : Hierarchy) (start : AccountId) (way : List AccountId) : Prop where
  head?_eq : way.head? = some start
  links : way.IsChain h.Link
  nodup : way.Nodup

/-- A way of at most twelve accounts that ends at the root, or below a parent that does not
exist. -/
def IsOwnershipChain (h : Hierarchy) (start : AccountId) (accounts : List AccountId) : Prop :=
  h.Way start accounts ∧ accounts.length ≤ 12
    ∧ ∃ last, accounts.getLast? = some last
      ∧ (last = h.root ∨ ∃ missing, h.parent last = some missing ∧ h.contains missing = false)

/-- Why an account has no ownership chain. -/
inductive Flaw (h : Hierarchy) (start : AccountId) : Fault → Prop
  /-- The way leads to an account below the root that names no parent. -/
  | detached {way : List AccountId} {last : AccountId} (hway : h.Way start way)
      (hshort : way.length ≤ 12) (hlast : way.getLast? = some last) (hbelow : last ≠ h.root)
      (hnone : h.parent last = none) : Flaw h start (.detachedAccount start last)
  /-- The way leads back to one of its accounts. -/
  | cycle {way : List AccountId} {last again : AccountId} (hway : h.Way start way)
      (hshort : way.length ≤ 12) (hlast : way.getLast? = some last) (hlink : h.Link last again)
      (hagain : again ∈ way) : Flaw h start (.ownershipCycle start)
  /-- There is a way of thirteen accounts. -/
  | tooDeep {way : List AccountId} (hway : h.Way start way) (hlength : way.length = 13) :
      Flaw h start (.chainTooDeep start maxChainDepth)

/-- What a walk should come to. -/
inductive Outcome (h : Hierarchy) (start : AccountId) : Except Fault (List AccountId) → Prop
  | chain {accounts : List AccountId} (hchain : h.IsOwnershipChain start accounts) :
      Outcome h start (.ok accounts)
  | flaw {fault : Fault} (hflaw : h.Flaw start fault) : Outcome h start (.error fault)

variable {h : Hierarchy} {start : AccountId}

theorem Way.singleton (h : Hierarchy) (start : AccountId) : h.Way start [start] where
  head?_eq := rfl
  links := .singleton start
  nodup := by simp

/-- A way is longer by one account if a link leads from its end to a new account. -/
theorem way_concat_iff {before : List AccountId} {current parent : AccountId} :
    h.Way start (before ++ [current] ++ [parent]) ↔
      h.Way start (before ++ [current]) ∧ h.Link current parent
        ∧ parent ∉ before ++ [current] := by
  have hhead : (before ++ [current] ++ [parent]).head? = (before ++ [current]).head? := by
    rw [List.head?_append_of_ne_nil _ (by simp)]
  have hlinks : (before ++ [current] ++ [parent]).IsChain h.Link ↔
      (before ++ [current]).IsChain h.Link ∧ h.Link current parent := by
    rw [List.isChain_append]
    simp only [List.isChain_singleton, true_and, List.getLast?_concat, List.head?_cons,
      Option.mem_some_iff, forall_eq']
  have hnodup : (before ++ [current] ++ [parent]).Nodup ↔
      parent ∉ before ++ [current] ∧ (before ++ [current]).Nodup := by
    rw [List.nodup_append_comm, List.singleton_append, List.nodup_cons]
  constructor
  · intro hway
    obtain ⟨hlinks', hlink⟩ := hlinks.mp hway.links
    obtain ⟨hnew, hnodup'⟩ := hnodup.mp hway.nodup
    exact ⟨⟨hhead ▸ hway.head?_eq, hlinks', hnodup'⟩, hlink, hnew⟩
  · intro hlonger
    obtain ⟨hway, hlink, hnew⟩ := hlonger
    exact ⟨hhead.trans hway.head?_eq, hlinks.mpr ⟨hway.links, hlink⟩, hnodup.mpr ⟨hnew, hway.nodup⟩⟩

/-! ## What the walk finds -/

/-- A climb that has come along a way finds an ownership chain that goes on from there, or a
flaw. -/
theorem climb_outcome {before visited : List AccountId} {current : AccountId} {hops : Nat}
    (hway : h.Way start (before ++ [current]))
    (hvisited : ∀ account, account ∈ visited ↔ account ∈ before ++ [current])
    (hhops : (before ++ [current]).length + hops = 12) :
    h.Outcome start
      ((h.climb start hops current visited).map fun rest => before ++ current :: rest) := by
  fun_induction h.climb start hops current visited generalizing before with
  | case1 hops visited =>
      exact .chain ⟨hway, Nat.le.intro hhops, h.root, List.getLast?_concat, .inl rfl⟩
  | case2 hops current visited hbelow hnone =>
      exact .flaw (.detached hway (Nat.le.intro hhops) List.getLast?_concat hbelow hnone)
  | case3 hops current visited hbelow parent hparent habsent =>
      have hmissing : h.contains parent = false := by simpa using habsent
      exact .chain ⟨hway, Nat.le.intro hhops, current, List.getLast?_concat,
        .inr ⟨parent, hparent, hmissing⟩⟩
  | case4 hops current visited hbelow parent hparent hexists hmet =>
      have hlink : h.Link current parent := ⟨hbelow, hparent, by simpa using hexists⟩
      exact .flaw (.cycle hway (Nat.le.intro hhops) List.getLast?_concat hlink
        ((hvisited parent).mp hmet))
  | case5 current visited hbelow parent hparent hexists hnew =>
      have hlink : h.Link current parent := ⟨hbelow, hparent, by simpa using hexists⟩
      have hnew' : parent ∉ before ++ [current] := fun hmem => hnew ((hvisited parent).mpr hmem)
      have hlonger := way_concat_iff.mpr ⟨hway, hlink, hnew'⟩
      refine .flaw (.tooDeep hlonger ?_)
      rw [List.length_append, List.length_singleton]
      omega
  | case6 current visited hbelow parent hparent hexists hnew hops ih =>
      have hlink : h.Link current parent := ⟨hbelow, hparent, by simpa using hexists⟩
      have hnew' : parent ∉ before ++ [current] := fun hmem => hnew ((hvisited parent).mpr hmem)
      have hlonger := way_concat_iff.mpr ⟨hway, hlink, hnew'⟩
      have hmet (account : AccountId) :
          account ∈ parent :: visited ↔ account ∈ before ++ [current] ++ [parent] := by
        rw [List.mem_cons, List.mem_append (s := before ++ [current]), List.mem_singleton,
          hvisited, or_comm]
      have hfewer : (before ++ [current] ++ [parent]).length + hops = 12 := by
        rw [List.length_append, List.length_singleton]
        omega
      have hrest := ih hlonger hmet hfewer
      cases hclimb : h.climb start hops parent (parent :: visited) with
      | error fault =>
          rw [hclimb] at hrest
          exact hrest
      | ok rest =>
          rw [hclimb, Except.map, List.append_assoc, List.singleton_append] at hrest
          exact hrest

theorem walk_eq_map_climb (h : Hierarchy) (start : AccountId) :
    h.walk start = (h.climb start maxChainDepth start [start]).map (OwnershipChain.mk start) := by
  rw [walk]
  cases h.climb start maxChainDepth start [start] <;> rfl

theorem walk_outcome (h : Hierarchy) (start : AccountId) :
    h.Outcome start ((h.walk start).map OwnershipChain.accounts) := by
  have hclimbed : h.Outcome start
      ((h.climb start maxChainDepth start [start]).map fun rest => [] ++ start :: rest) :=
    climb_outcome (.singleton h start) (fun _ => Iff.rfl) rfl
  rw [walk_eq_map_climb]
  cases hclimb : h.climb start maxChainDepth start [start] with
  | error fault => rwa [hclimb] at hclimbed
  | ok ancestors => rwa [hclimb] at hclimbed

/-! ## Where the walk goes -/

/-- A climb follows links to new accounts as far as it has hops. -/
theorem climb_of_isChain {current last : AccountId} {rest visited : List AccountId} {hops : Nat}
    (hlinks : (current :: rest).IsChain h.Link) (hnodup : (rest.reverse ++ visited).Nodup)
    (hlast : (current :: rest).getLast? = some last) (start : AccountId) :
    h.climb start (rest.length + hops) current visited =
      (h.climb start hops last (rest.reverse ++ visited)).map (rest ++ ·) := by
  induction rest generalizing current visited with
  | nil =>
      obtain rfl : current = last := by simpa using hlast
      rw [List.length_nil, Nat.zero_add, List.reverse_nil, List.nil_append]
      cases h.climb start hops current visited <;> rfl
  | cons parent rest ih =>
      obtain ⟨hlink, hlinks⟩ := List.isChain_cons_cons.mp hlinks
      rw [List.reverse_cons, List.append_assoc, List.singleton_append] at hnodup ⊢
      have hnew : parent ∉ visited := (List.nodup_cons.mp (List.nodup_append.mp hnodup).2.1).1
      rw [List.getLast?_cons_cons] at hlast
      rw [List.length_cons, Nat.add_right_comm, climb_of_link hlink hnew, ih hlinks hnodup hlast]
      cases h.climb start hops last (rest.reverse ++ parent :: visited) <;> rfl

/-- The walk follows a way of at most twelve accounts to its end. -/
theorem walk_of_way {way : List AccountId} {last : AccountId} (hway : h.Way start way)
    (hlast : way.getLast? = some last) {hops : Nat} (hhops : way.length + hops = 12) :
    (h.walk start).map OwnershipChain.accounts =
      (h.climb start hops last way.reverse).map (way ++ ·) := by
  obtain ⟨rest, rfl⟩ := List.head?_eq_some_iff.mp hway.head?_eq
  have hnodup : (rest.reverse ++ [start]).Nodup := by
    rw [← List.reverse_cons, List.nodup_reverse]
    exact hway.nodup
  have hdepth : maxChainDepth = rest.length + hops := by
    rw [List.length_cons] at hhops
    rw [maxChainDepth]
    omega
  rw [walk_eq_map_climb, hdepth, climb_of_isChain hway.links hnodup hlast, List.reverse_cons]
  cases h.climb start hops last (rest.reverse ++ [start]) <;> rfl

/-- Where something is so, the walk comes to it. -/
theorem map_walk_of_outcome {outcome : Except Fault (List AccountId)}
    (houtcome : h.Outcome start outcome) :
    (h.walk start).map OwnershipChain.accounts = outcome := by
  cases houtcome with
  | chain hchain =>
      obtain ⟨hway, hshort, last, hlast, hends⟩ := hchain
      rw [walk_of_way hway hlast (Nat.add_sub_of_le hshort)]
      rcases hends with rfl | ⟨missing, hmissing, habsent⟩
      · simp [climb, Except.map]
      · by_cases hroot : last = h.root
        · simp [climb, hroot, Except.map]
        · simp [climb, hroot, hmissing, habsent, Except.map]
  | flaw hflaw =>
      cases hflaw with
      | detached hway hshort hlast hbelow hnone =>
          rw [walk_of_way hway hlast (Nat.add_sub_of_le hshort)]
          simp [climb, hbelow, hnone, Except.map]
      | cycle hway hshort hlast hlink hagain =>
          obtain ⟨hbelow, hparent, hexists⟩ := hlink
          rw [walk_of_way hway hlast (Nat.add_sub_of_le hshort)]
          simp [climb, hbelow, hparent, hexists, hagain, Except.map]
      | @tooDeep way hway hlength =>
          -- The bound is met at the last account but one.
          rcases List.eq_nil_or_concat' way with rfl | ⟨way, beyond, rfl⟩
          · cases hlength
          rw [List.length_append, List.length_singleton] at hlength
          rcases List.eq_nil_or_concat' way with rfl | ⟨before, last, rfl⟩
          · cases hlength
          obtain ⟨hway, ⟨hbelow, hparent, hexists⟩, hnew⟩ := way_concat_iff.mp hway
          have hfull : (before ++ [last]).length + 0 = 12 := Nat.succ.inj hlength
          rw [walk_of_way hway List.getLast?_concat hfull]
          simp only [climb, if_neg hbelow, hparent, hexists, Bool.not_true, Bool.false_eq_true,
            if_false, List.mem_reverse, if_neg hnew]
          rfl

/-- The walk comes to exactly what it should come to. -/
theorem map_walk_eq_iff (h : Hierarchy) (start : AccountId)
    (outcome : Except Fault (List AccountId)) :
    (h.walk start).map OwnershipChain.accounts = outcome ↔ h.Outcome start outcome :=
  ⟨fun hwalk => hwalk ▸ h.walk_outcome start, map_walk_of_outcome⟩

theorem outcome_ok_iff {accounts : List AccountId} :
    h.Outcome start (.ok accounts) ↔ h.IsOwnershipChain start accounts :=
  ⟨fun | .chain hchain => hchain, .chain⟩

theorem outcome_error_iff {fault : Fault} :
    h.Outcome start (.error fault) ↔ h.Flaw start fault :=
  ⟨fun | .flaw hflaw => hflaw, .flaw⟩

/-- The ownership chains are what the walk returns. -/
theorem isOwnershipChain_iff {accounts : List AccountId} :
    h.IsOwnershipChain start accounts ↔
      ∃ chain, h.walk start = .ok chain ∧ chain.accounts = accounts := by
  rw [← outcome_ok_iff, ← map_walk_eq_iff]
  cases h.walk start with
  | ok chain => simp [Except.map]
  | error fault => simp [Except.map]

/-- The flaws are what the walk reports. -/
theorem flaw_iff {fault : Fault} : h.Flaw start fault ↔ h.walk start = .error fault := by
  rw [← outcome_error_iff, ← map_walk_eq_iff]
  cases h.walk start with
  | ok chain => simp [Except.map]
  | error other => simp [Except.map]

/-! ## How much the walk asks for -/

/-- A climb that asks for each parent by some action. -/
def climbAsking {m : Type → Type} [Monad m] (h : Hierarchy)
    (ask : AccountId → m (Option AccountId)) (start : AccountId) (hops : Nat)
    (current : AccountId) (visited : List AccountId) : m (Except Fault (List AccountId)) := do
  if current = h.root then return .ok []
  else
    match ← ask current with
    | none => return .error (.detachedAccount start current)
    | some parent =>
        if !h.contains parent then return .ok []
        else if visited.contains parent then return .error (.ownershipCycle start)
        else
          match hops with
          | 0 => return .error (.chainTooDeep start maxChainDepth)
          | hops + 1 =>
              return (← h.climbAsking ask start hops parent (parent :: visited)).map (parent :: ·)

/-- Look a parent up, and count that. -/
def countedParent (h : Hierarchy) (account : AccountId) : StateM Nat (Option AccountId) := do
  modify (· + 1)
  return h.parent account

/-- The walk, and how many parents it looks up. -/
def countedWalk (h : Hierarchy) (account : AccountId) : Except Fault OwnershipChain × Nat :=
  let (ancestors, lookups) :=
    (h.climbAsking h.countedParent account maxChainDepth account [account]).run 0
  (ancestors.map (OwnershipChain.mk account), lookups)

/-- Below the root, a climb looks one parent up and then does what that parent says. -/
theorem run_climbAsking_of_ne_root {h : Hierarchy} {current : AccountId}
    (hbelow : current ≠ h.root) (start : AccountId) (hops : Nat) (visited : List AccountId)
    (before : Nat) :
    (h.climbAsking h.countedParent start hops current visited).run before =
      match h.parent current with
      | none => (.error (.detachedAccount start current), before + 1)
      | some parent =>
          if !h.contains parent then (.ok [], before + 1)
          else if parent ∈ visited then (.error (.ownershipCycle start), before + 1)
          else
            match hops with
            | 0 => (.error (.chainTooDeep start maxChainDepth), before + 1)
            | hops + 1 =>
                let (rest, lookups) :=
                  (h.climbAsking h.countedParent start hops parent (parent :: visited)).run
                    (before + 1)
                (rest.map (parent :: ·), lookups) := by
  rw [climbAsking, if_neg hbelow]
  cases hparent : h.parent current with
  | none =>
      rw [countedParent, hparent]
      rfl
  | some parent =>
      rw [countedParent, hparent]
      by_cases habsent : (!h.contains parent) = true
      · simp only [bind_assoc, pure_bind, if_pos habsent]
        rfl
      · by_cases hmet : parent ∈ visited
        · simp only [bind_assoc, pure_bind, if_neg habsent, List.contains_iff_mem, if_pos hmet]
          rfl
        · simp only [bind_assoc, pure_bind, if_neg habsent, List.contains_iff_mem, if_neg hmet]
          cases hops <;> rfl

/-- A climb looks up one parent more than it has hops, at most. -/
theorem run_climbAsking (h : Hierarchy) (start : AccountId) (hops : Nat) (current : AccountId)
    (visited : List AccountId) (before : Nat) :
    ∃ lookups ≤ hops + 1, (h.climbAsking h.countedParent start hops current visited).run before =
      (h.climb start hops current visited, before + lookups) := by
  fun_induction h.climb start hops current visited generalizing before with
  | case1 hops visited =>
      refine ⟨0, Nat.zero_le _, ?_⟩
      rw [climbAsking, if_pos rfl]
      rfl
  | case2 hops current visited hbelow hnone =>
      refine ⟨1, Nat.succ_le_succ (Nat.zero_le _), ?_⟩
      rw [run_climbAsking_of_ne_root hbelow, hnone]
  | case3 hops current visited hbelow parent hparent habsent =>
      refine ⟨1, Nat.succ_le_succ (Nat.zero_le _), ?_⟩
      rw [run_climbAsking_of_ne_root hbelow, hparent]
      simp only [if_pos habsent]
  | case4 hops current visited hbelow parent hparent hexists hmet =>
      refine ⟨1, Nat.succ_le_succ (Nat.zero_le _), ?_⟩
      rw [run_climbAsking_of_ne_root hbelow, hparent]
      simp only [if_neg hexists, if_pos hmet]
  | case5 current visited hbelow parent hparent hexists hnew =>
      refine ⟨1, Nat.le_refl _, ?_⟩
      rw [run_climbAsking_of_ne_root hbelow, hparent]
      simp only [if_neg hexists, if_neg hnew]
  | case6 current visited hbelow parent hparent hexists hnew hops ih =>
      obtain ⟨lookups, hlookups, hrun⟩ := ih (before + 1)
      refine ⟨lookups + 1, Nat.succ_le_succ hlookups, ?_⟩
      rw [run_climbAsking_of_ne_root hbelow, hparent]
      simp only [if_neg hexists, if_neg hnew, hrun]
      rw [Nat.add_assoc, Nat.add_comm 1]
      cases h.climb start hops parent (parent :: visited) <;> rfl

theorem countedWalk_eq (h : Hierarchy) (start : AccountId) :
    ∃ lookups ≤ 12, h.countedWalk start = (h.walk start, lookups) := by
  obtain ⟨lookups, hlookups, hrun⟩ := h.run_climbAsking start maxChainDepth start [start] 0
  refine ⟨lookups, hlookups, ?_⟩
  rw [walk_eq_map_climb, countedWalk, hrun, Nat.zero_add]

end Hierarchy

/-! ## The walk as a whole -/

/-- The ownership chain in any tree, which need not be the tree of a store. -/
def ScopeResolver.chainIn (r : ScopeResolver) (m : Metrics) (h : Hierarchy)
    (account : AccountId) : Except Fault OwnershipChain × Metrics :=
  (h.walk account, r.noteInconsistency m (h.walk account))

/-- The metrics count a walk if and only if it fails. -/
theorem ScopeResolver.counter_chainIn (r : ScopeResolver) (m : Metrics) (h : Hierarchy)
    (account : AccountId) (name : String) :
    (r.chainIn m h account).2.counter name =
      if r.isMetered && !(h.walk account).isOk && name == Metrics.scopeInconsistencies
      then m.counter name + 1 else m.counter name := by
  cases hwalk : h.walk account with
  | ok chain => simp [chainIn, hwalk, noteInconsistency, Except.isOk, Except.toBool]
  | error fault =>
      have hinconsistency := Hierarchy.isInconsistency_of_walk_eq_error hwalk
      cases hmetered : r.isMetered with
      | false => simp [chainIn, hwalk, noteInconsistency, hmetered]
      | true =>
          simp only [chainIn, hwalk, noteInconsistency, hmetered, hinconsistency, Bool.and_self,
            if_true, Metrics.counter_count, Except.isOk, Except.toBool]
          by_cases hname : name = Metrics.scopeInconsistencies
          · simp [hname]
          · simp [hname, Ne.symm hname]

/-- The walk ends after twelve lookups of parents at most. It returns the ownership chain if there
is one, and there is one only; otherwise it returns the fault for which there is none, and there
is one of these only. It is counted exactly when it returns a fault. -/
theorem Hierarchy.walk_specified (h : Hierarchy) (start : AccountId) :
    (∃ lookups ≤ 12, h.countedWalk start = (h.walk start, lookups))
    ∧ (∀ accounts, h.IsOwnershipChain start accounts ↔
        ∃ chain, h.walk start = .ok chain ∧ chain.accounts = accounts)
    ∧ (∀ fault, h.Flaw start fault ↔ h.walk start = .error fault)
    ∧ ((∃! accounts, h.IsOwnershipChain start accounts) ∧ (∀ fault, ¬ h.Flaw start fault)
      ∨ (∀ accounts, ¬ h.IsOwnershipChain start accounts) ∧ ∃! fault, h.Flaw start fault)
    ∧ (∀ (r : ScopeResolver) (m : Metrics) (name : String),
        (r.chainIn m h start).1 = h.walk start
        ∧ (r.chainIn m h start).2.counter name =
          if r.isMetered && !(h.walk start).isOk && name == Metrics.scopeInconsistencies
          then m.counter name + 1 else m.counter name)
    ∧ ∀ (r : ScopeResolver) (m : Metrics) (s : Snapshot) (rules : TableRules),
        r.ownershipChain m ⟨s, rules, true⟩ start = r.chainIn m s.hierarchy start := by
  refine ⟨h.countedWalk_eq start, fun accounts => isOwnershipChain_iff, fun fault => flaw_iff, ?_,
    fun r m name => ⟨rfl, r.counter_chainIn m h start name⟩, fun r m s rules => rfl⟩
  simp only [isOwnershipChain_iff, flaw_iff]
  cases hwalk : h.walk start with
  | ok chain =>
      refine .inl ⟨⟨chain.accounts, ⟨chain, rfl, rfl⟩, ?_⟩, ?_⟩
      · rintro accounts ⟨found, hfound, rfl⟩
        rw [Except.ok.inj hfound]
      · intro fault hfault
        cases hfault
  | error fault =>
      refine .inr ⟨?_, fault, rfl, fun other hother => (Except.error.inj hother).symm⟩
      rintro accounts ⟨found, hfound, -⟩
      cases hfound

end ControlPlane
