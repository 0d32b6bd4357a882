/-
# The documents that are accepted

Validation is a series of checks that stop at the first offence, some of them in one pass over a
list and some after a pass over all of it. What they amount to can be said without them: a document
is accepted exactly if it is consistent. No defect is passed over, no consistent document is
refused, and the order in which its records stand makes no difference.

Making a store asks for nothing beyond validation.
-/

import ControlPlane.Proofs.Metadata.Consistency

namespace ControlPlane

open Std (ExtTreeMap ExtTreeSet)

/-! ## Indexes of lists -/

/-- Versions are indexed exactly if their tokens differ. -/
theorem ReleaseIndex.exists_ofVersions_iff {versions : List ProtocolVersion} :
    (∃ index, ofVersions versions = .ok index) ↔ (versions.map (·.token)).Nodup := by
  constructor
  · rintro ⟨index, h⟩
    exact (indexes_of_ofVersions h).1
  · intro hnodup
    induction versions using List.reverseRecOn with
    | nil => exact ⟨_, rfl⟩
    | append_singleton versions version ih =>
        rw [List.map_append, List.map_singleton, List.nodup_append] at hnodup
        obtain ⟨hbefore, -, hfresh⟩ := hnodup
        obtain ⟨before, hindex⟩ := ih hbefore
        have hunused : before.released.contains version.token = false := by
          rw [Bool.eq_false_iff, Ne, ExtTreeMap.contains_eq_isSome_getElem?]
          intro hknown
          exact hfresh _ (mem_tokens_of_releasedMs? hindex hknown) _ List.mem_cons_self rfl
        rw [ofVersions_concat, hindex]
        simp only [hunused]
        exact ⟨_, rfl⟩

/-- Rules are collected exactly if they are for different tables. -/
theorem TableRules.exists_ofList_iff {rules : List TableRule} :
    (∃ known, ofList rules = .ok known) ↔ (rules.map (·.table)).Nodup := by
  constructor
  · rintro ⟨known, h⟩
    exact (get?_of_ofList h).1
  · intro hnodup
    induction rules using List.reverseRecOn with
    | nil => exact ⟨_, rfl⟩
    | append_singleton rules rule ih =>
        rw [List.map_append, List.map_singleton, List.nodup_append] at hnodup
        obtain ⟨hbefore, -, hfresh⟩ := hnodup
        obtain ⟨before, hrules⟩ := ih hbefore
        have hunused : before.byTable.contains rule.table = false := by
          rw [ExtTreeMap.contains_eq_isSome_getElem?, ← get?, (get?_of_ofList hrules).2,
            Option.isSome_eq_false_iff, Option.isNone_iff_eq_none, List.find?_eq_none]
          intro other hother heq
          exact hfresh _ (List.mem_map_of_mem hother) _ List.mem_cons_self (beq_iff_eq.mp heq)
        rw [ofList_concat, hrules]
        simp only [hunused]
        exact ⟨_, rfl⟩

/-! ## Consistent documents -/

namespace MetadataDocument

variable {doc : MetadataDocument}

/-- A document in which every key is declared once, the root and only the root has no parent, and
every host and version that is referred to is declared. -/
structure IsConsistent (doc : MetadataDocument) : Prop extends doc.HasDistinctKeys where
  root : ∃ record ∈ doc.accounts, record.id = doc.root ∧ record.parent = none
  parents : ∀ account ∈ doc.accounts, account.id ≠ doc.root → account.parent.isSome
  /-- A host may fail over to itself. -/
  failover : ∀ host ∈ doc.hosts, ∀ other ∈ host.failoverParent, other ∈ doc.hosts.map (·.id)
  replication : ∀ host ∈ doc.hosts, ∀ other ∈ host.replicationTargets,
    other ∈ doc.hosts.map (·.id)
  tokens : ∀ table ∈ doc.tables, table.IsKnown doc.protocolVersions

/-- A host refers to those that it fails over to or replicates to. -/
theorem forall_mem_related_iff {host : HostRecord} {p : HostId → Prop} :
    (∀ other ∈ host.related, p other) ↔
      (∀ other ∈ host.failoverParent, p other) ∧ ∀ other ∈ host.replicationTargets, p other := by
  simp only [HostRecord.related, List.mem_append, or_imp, forall_and, Option.mem_toList,
    Option.mem_def, ExtTreeSet.mem_toList]

theorem checkHosts_iff_declared :
    doc.checkHosts = .ok () ↔
      (doc.hosts.map (·.id)).Nodup
        ∧ (∀ host ∈ doc.hosts, ∀ other ∈ host.failoverParent, other ∈ doc.hosts.map (·.id))
        ∧ ∀ host ∈ doc.hosts, ∀ other ∈ host.replicationTargets, other ∈ doc.hosts.map (·.id) := by
  simp only [checkHosts_eq_ok_iff, ← List.mem_map, forall_mem_related_iff, forall_and]

theorem isConsistent_of_validate (h : doc.validate = .ok ()) : doc.IsConsistent := by
  obtain ⟨index, hindex, -, htables⟩ := of_validate h
  obtain ⟨haccounts, h'⟩ := check_bind_eq_ok_iff.mp h
  obtain ⟨hhosts, -⟩ := check_bind_eq_ok_iff.mp h'
  obtain ⟨-, hroot, hparents⟩ := checkAccounts_eq_ok_iff.mp haccounts
  obtain ⟨-, hfailover, hreplication⟩ := checkHosts_iff_declared.mp hhosts
  exact {
    toHasDistinctKeys := hasDistinctKeys_of_validate h
    root := hroot
    parents := hparents
    failover := hfailover
    replication := hreplication
    tokens := fun table htable => (htables table htable).2 }

theorem IsConsistent.validate (h : doc.IsConsistent) : doc.validate = .ok () := by
  have haccounts := checkAccounts_eq_ok_iff.mpr ⟨h.accounts, h.root, h.parents⟩
  have hhosts := checkHosts_iff_declared.mpr ⟨h.hosts, h.failover, h.replication⟩
  have husers := (firstRepeat?_eq_none_iff _).mpr h.users
  obtain ⟨index, hindex⟩ := ReleaseIndex.exists_ofVersions_iff.mpr h.versions
  have htables : checkTables index [] doc.tables = .ok () := by
    refine (checkTables_eq_ok_iff hindex).mpr ⟨⟨h.tables, fun _ _ => List.not_mem_nil⟩, ?_⟩
    exact fun table htable => ⟨h.columns table htable, h.tokens table htable⟩
  obtain ⟨known, hrules⟩ := TableRules.exists_ofList_iff.mpr h.rules
  refine check_bind_eq_ok_iff.mpr ⟨haccounts, ?_⟩
  refine check_bind_eq_ok_iff.mpr ⟨hhosts, ?_⟩
  refine check_bind_eq_ok_iff.mpr ⟨refuse_eq_ok_iff.mpr husers, ?_⟩
  refine bind_eq_ok_iff.mpr ⟨index, mapError_eq_ok_iff.mpr hindex, ?_⟩
  refine check_bind_eq_ok_iff.mpr ⟨htables, ?_⟩
  exact bind_eq_ok_iff.mpr ⟨known, mapError_eq_ok_iff.mpr hrules, rfl⟩

/-- A document is accepted exactly if it is consistent, and exactly then it makes a store. -/
theorem accepted_iff_isConsistent (doc : MetadataDocument) :
    (doc.validate = .ok () ↔ doc.IsConsistent)
      ∧ ((∃ store, Store.ofDocument doc = .ok store) ↔ doc.IsConsistent) := by
  refine ⟨⟨isConsistent_of_validate, IsConsistent.validate⟩, ?_⟩
  constructor
  · rintro ⟨store, h⟩
    exact isConsistent_of_validate (Store.of_ofDocument h).1
  · intro h
    -- the rules were collected once already by validation
    obtain ⟨known, hrules⟩ := TableRules.exists_ofList_iff.mpr h.rules
    refine ⟨{ snapshot := .ofDocument doc, rules := known }, ?_⟩
    rw [Store.ofDocument, h.validate, hrules]
    rfl

/-- A host may fail over to itself and replicate to one that is declared after it. -/
example : ({
    root := ⟨1⟩
    accounts := [{ id := ⟨1⟩ }]
    hosts := [{ id := ⟨1⟩, failoverParent := some ⟨1⟩, replicationTargets := {⟨2⟩} },
      { id := ⟨2⟩ }] } : MetadataDocument).validate = .ok () := by
  decide +kernel

end MetadataDocument

end ControlPlane
