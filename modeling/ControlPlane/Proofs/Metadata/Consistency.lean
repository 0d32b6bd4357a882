/-
# What acceptance rules out

A document is accepted by checks that stand apart from everything that later reads the store:
from the indexing of its lists, from the release index and the catalog of a bridge, from the walk
up the ownership tree. Here they are brought together. Whatever is read of a store that was made
from an accepted document and not changed since, no reader finds a record missing or merged with
another, a version that nobody declared, a parentless account below the root, or a host that does
not exist.

The store may be out of reach for a time. What a bridge keeps from before or after is not touched
by that.
-/

import ControlPlane.Access.Resolver
import ControlPlane.Proofs.Metadata.Acceptance
import ControlPlane.Proofs.Protocol.Generations

namespace ControlPlane

open Std (ExtTreeMap ExtTreeSet)

/-! ## Documents -/

/-- No list of a document has two records under one key. -/
structure MetadataDocument.HasDistinctKeys (doc : MetadataDocument) : Prop where
  accounts : (doc.accounts.map (·.id)).Nodup
  hosts : (doc.hosts.map (·.id)).Nodup
  users : (doc.users.map (·.username)).Nodup
  versions : (doc.protocolVersions.map (·.token)).Nodup
  tables : (doc.tables.map (·.id)).Nodup
  columns : ∀ table ∈ doc.tables, (table.columns.map (·.id)).Nodup
  rules : (doc.tableRules.map (·.table)).Nodup

theorem TableRules.ofList_concat (rules : List TableRule) (rule : TableRule) :
    ofList (rules ++ [rule]) =
      match ofList rules with
      | .ok before =>
          if before.byTable.contains rule.table then
            .error (.metadata (.duplicateRule rule.table))
          else .ok { byTable := before.byTable.insert rule.table rule }
      | .error fault => .error fault := by
  rw [ofList, List.foldlM_append, ← ofList]
  cases ofList rules with
  | error fault => rfl
  | ok before =>
      simp only [List.foldlM_cons, List.foldlM_nil, bind_pure]
      rfl

/-- A rule set that was made has the rules it was made from. -/
theorem TableRules.get?_of_ofList {rules : List TableRule} {known : TableRules}
    (h : ofList rules = .ok known) :
    (rules.map (·.table)).Nodup
      ∧ ∀ table, known.get? table = rules.find? (·.table == table) := by
  induction rules using List.reverseRecOn generalizing known with
  | nil =>
      cases h
      exact ⟨List.nodup_nil, fun table => ExtTreeMap.getElem?_empty⟩
  | append_singleton rules rule ih =>
      rw [ofList_concat] at h
      split at h
      · next before hbefore =>
        obtain ⟨hnodup, hget⟩ := ih hbefore
        split at h
        · cases h
        · next hfresh =>
          cases h
          -- no rule so far is for the table of the new one
          have hnone : rules.find? (·.table == rule.table) = none := by
            rw [← hget, get?, ExtTreeMap.getElem?_eq_none]
            simpa using hfresh
          constructor
          · rw [List.map_append, List.nodup_append]
            refine ⟨hnodup, List.nodup_singleton _, ?_⟩
            intro table htable other hother heq
            obtain ⟨earlier, hearlier, rfl⟩ := List.mem_map.mp htable
            rw [List.mem_singleton.mp hother] at heq
            exact List.find?_eq_none.mp hnone earlier hearlier (beq_iff_eq.mpr heq)
          · intro table
            rw [get?, getElem?_insert_eq_ite, List.find?_append, ← get?, hget]
            by_cases heq : rule.table = table
            · subst heq
              rw [if_pos rfl, hnone]
              simp
            · simp [heq]
      · cases h

/-- Under its key a list with distinct keys has the item itself. -/
theorem find?_eq_some_of_mem {α κ : Type} [DecidableEq κ] {key : α → κ} {items : List α}
    (hnodup : (items.map key).Nodup) {item : α} (hitem : item ∈ items) :
    (items.find? fun other => key other == key item) = some item := by
  cases hfind : items.find? fun other => key other == key item with
  | none => exact absurd (beq_self_eq_true (key item)) (List.find?_eq_none.mp hfind item hitem)
  | some found =>
      have hkey : key found = key item := by simpa using List.find?_some hfind
      have hfound := List.mem_of_find?_eq_some hfind
      rw [List.inj_on_of_nodup_map hnodup hfound hitem hkey]

namespace MetadataDocument

variable {doc : MetadataDocument}

/-- The record of an account. -/
def account? (doc : MetadataDocument) (account : AccountId) : Option AccountRecord :=
  doc.accounts.find? (·.id == account)

/-- The record of a host. -/
def host? (doc : MetadataDocument) (host : HostId) : Option HostRecord :=
  doc.hosts.find? (·.id == host)

/-- The record of a user. -/
def user? (doc : MetadataDocument) (username : String) : Option UserRecord :=
  doc.users.find? (·.username == username)

/-- The rule of a table. -/
def rule? (doc : MetadataDocument) (table : String) : Option TableRule :=
  doc.tableRules.find? (·.table == table)

/-- Accounts pass if their ids are distinct, the root is among them without a parent, and no other
account is without one. -/
theorem checkAccounts_eq_ok_iff :
    doc.checkAccounts = .ok () ↔
      (doc.accounts.map (·.id)).Nodup
        ∧ (∃ root ∈ doc.accounts, root.id = doc.root ∧ root.parent = none)
        ∧ ∀ account ∈ doc.accounts, account.id ≠ doc.root → account.parent.isSome := by
  rw [checkAccounts]
  simp only [check_bind_eq_ok_iff, refuse_eq_ok_iff, firstRepeat?_eq_none_iff]
  refine and_congr_right fun hnodup => ?_
  cases hroot : doc.accounts.find? (·.id == doc.root) with
  | none =>
      constructor
      · intro h
        cases h
      · rintro ⟨⟨root, hmem, heq, -⟩, -⟩
        exact absurd (beq_iff_eq.mpr heq) (List.find?_eq_none.mp hroot root hmem)
  | some root =>
      have hmem := List.mem_of_find?_eq_some hroot
      have heq : root.id = doc.root := by simpa using List.find?_some hroot
      cases hparent : root.parent with
      | some parent =>
          -- no other record of the root could be without a parent
          constructor
          · intro h
            simp [hparent] at h
          · rintro ⟨⟨other, hother, hother', hnone⟩, -⟩
            obtain rfl := List.inj_on_of_nodup_map hnodup hother hmem (hother'.trans heq.symm)
            rw [hparent] at hnone
            cases hnone
      | none =>
          simp only [hparent, Option.isSome_none, Bool.false_eq_true, if_false, refuse_eq_ok_iff,
            List.find?_eq_none, Bool.and_eq_true, bne_iff_ne, not_and, Bool.not_eq_true,
            Option.isNone_eq_false_iff]
          exact (and_iff_right ⟨root, hmem, heq, hparent⟩).symm

/-- Hosts pass if their ids are distinct and each refers to hosts of the document only. -/
theorem checkHosts_eq_ok_iff :
    doc.checkHosts = .ok () ↔
      (doc.hosts.map (·.id)).Nodup
        ∧ ∀ host ∈ doc.hosts, ∀ other ∈ host.related, ∃ record ∈ doc.hosts, record.id = other := by
  rw [checkHosts]
  simp only [check_bind_eq_ok_iff, refuse_eq_ok_iff, firstRepeat?_eq_none_iff,
    unknownHost?, List.findSome?_eq_none_iff, Option.map_eq_none_iff, List.find?_eq_none]
  simp

theorem hasDistinctKeys_of_validate (h : doc.validate = .ok ()) : doc.HasDistinctKeys := by
  obtain ⟨index, hindex, hnodup, htables⟩ := of_validate h
  simp only [validate, bind_eq_ok_iff, mapError_eq_ok_iff] at h
  obtain ⟨_, haccounts, _, hhosts, _, husers, -, -, -, -, rules, hrules, -⟩ := h
  exact {
    accounts := (checkAccounts_eq_ok_iff.mp haccounts).1
    hosts := (checkHosts_eq_ok_iff.mp hhosts).1
    users := (firstRepeat?_eq_none_iff _).mp (refuse_eq_ok_iff.mp husers)
    versions := (ReleaseIndex.indexes_of_ofVersions hindex).1
    tables := hnodup
    columns := fun table htable => (htables table htable).1
    rules := (TableRules.get?_of_ofList hrules).1 }

theorem parent_isSome_of_validate (h : doc.validate = .ok ()) {account : AccountRecord}
    (haccount : account ∈ doc.accounts) (hroot : account.id ≠ doc.root) :
    account.parent.isSome := by
  obtain ⟨_, haccounts, -⟩ := bind_eq_ok_iff.mp h
  exact (checkAccounts_eq_ok_iff.mp haccounts).2.2 account haccount hroot

theorem exists_host_of_mem_related (h : doc.validate = .ok ()) {host : HostRecord}
    (hhost : host ∈ doc.hosts) {other : HostId} (hother : other ∈ host.related) :
    ∃ record ∈ doc.hosts, record.id = other := by
  obtain ⟨_, -, h⟩ := bind_eq_ok_iff.mp h
  obtain ⟨_, hhosts, -⟩ := bind_eq_ok_iff.mp h
  exact (checkHosts_eq_ok_iff.mp hhosts).2 host hhost other hother

end MetadataDocument

/-! ## Stores -/

/-- A map made from a list with distinct keys has as many entries as the list has items. -/
theorem size_ofList_map {α β κ : Type} [Ord κ] [Std.TransOrd κ] [Std.LawfulEqOrd κ] {key : α → κ}
    (value : α → β) {items : List α} (hnodup : (items.map key).Nodup) :
    (ExtTreeMap.ofList (items.map fun item => (key item, value item))).size = items.length := by
  rw [ExtTreeMap.size_ofList, List.length_map]
  exact List.pairwise_map.mpr
    ((List.pairwise_map.mp hnodup).imp fun hne heq => hne (Std.LawfulEqOrd.eq_of_compare heq))

/-- The capability class of a role. -/
def UserRole.principal : UserRole → Principal
  | .operator => .operator
  | .scopedOperator .. => .scopedOperator
  | .tenant account => .tenant account

/-- The hosts that are assigned with a role. -/
def UserRole.hosts : UserRole → ExtTreeSet HostId
  | .scopedOperator hosts _ => hosts
  | .operator | .tenant _ => ∅

/-- The permissions that are held with a role. -/
def UserRole.permissions : UserRole → ExtTreeSet String
  | .scopedOperator _ permissions => permissions
  | .operator | .tenant _ => ∅

/-- A store answers every question from the record of a document that the question names, and
holds as many records as the document. -/
structure Store.AnswersFrom (store : Store) (doc : MetadataDocument) : Prop where
  read_eq : store.read = .ok store.snapshot
  size_accounts : store.snapshot.accounts.size = doc.accounts.length
  size_hosts : store.snapshot.hosts.size = doc.hosts.length
  size_users : store.snapshot.users.size = doc.users.length
  root_eq : store.snapshot.hierarchy.root = doc.root
  contains_eq (account : AccountId) :
    store.snapshot.hierarchy.contains account = (doc.account? account).isSome
  parent_eq (account : AccountId) :
    store.snapshot.hierarchy.parent account = (doc.account? account).bind (·.parent)
  failoverParent_eq (host : HostId) :
    store.snapshot.topology.failoverParent host = (doc.host? host).bind (·.failoverParent)
  mem_failoverChildren_iff (host other : HostId) :
    other ∈ store.snapshot.topology.failoverChildren host ↔
      ∃ record ∈ doc.hosts, record.id = other ∧ record.failoverParent = some host
  replicationTargets_eq (host : HostId) :
    store.snapshot.topology.replicationTargets host =
      ((doc.host? host).map (·.replicationTargets)).getD ∅
  classify_eq (username : String) :
    store.snapshot.classify username = (doc.user? username).map (·.role.principal)
  assignedHosts_eq (username : String) :
    store.snapshot.assignedHosts username = ((doc.user? username).map (·.role.hosts)).getD ∅
  permissions_eq (username : String) :
    store.snapshot.permissions username =
      ((doc.user? username).map (·.role.permissions)).getD ∅
  registry_eq : store.registry = ⟨.ok doc.protocolVersions, .ok doc.tables⟩
  rowCount_eq (table : String) (query : QueryScope) :
    store.snapshot.rowCount table query =
      UInt64.ofNat (doc.rows.countP fun row => row.table == table && row.isVisible query)
  rule_eq (table : String) : store.rules.get? table = doc.rule? table

/-- The hosts that fail over to a host, by their records. -/
theorem Snapshot.mem_failoverChildren_ofDocument {doc : MetadataDocument}
    (hnodup : (doc.hosts.map (·.id)).Nodup) (host other : HostId) :
    other ∈ (Snapshot.ofDocument doc).topology.failoverChildren host ↔
      ∃ record ∈ doc.hosts, record.id = other ∧ record.failoverParent = some host := by
  have hlisted (key : HostId) (record : HostRecord) :
      (Snapshot.ofDocument doc).hosts[key]? = some record ↔
        ∃ item ∈ doc.hosts, item.id = key ∧ item = record :=
    getElem?_ofList_map_eq_some_iff hnodup
  simp only [Snapshot.topology, ExtTreeSet.mem_ofList, List.contains_iff_mem, List.mem_map,
    List.mem_filter, Prod.exists, ExtTreeMap.mem_toList_iff_getElem?_eq_some, hlisted, beq_iff_eq]
  constructor
  · rintro ⟨key, record, ⟨⟨record', hrecord, -, rfl⟩, hparent⟩, hid⟩
    exact ⟨record', hrecord, hid, hparent⟩
  · rintro ⟨record, hrecord, hid, hparent⟩
    exact ⟨record.id, record, ⟨⟨record, hrecord, rfl, rfl⟩, hparent⟩, hid⟩

namespace Store

variable {doc : MetadataDocument} {store : Store}

theorem answersFrom_of_ofDocument (h : ofDocument doc = .ok store) : store.AnswersFrom doc := by
  obtain ⟨hvalidate, hregistry⟩ := of_ofDocument h
  have hkeys := MetadataDocument.hasDistinctKeys_of_validate hvalidate
  simp only [ofDocument, bind_eq_ok_iff, mapError_eq_ok_iff] at h
  obtain ⟨_, -, rules, hrules, h⟩ := h
  obtain rfl := Except.ok.inj h
  have haccount (account : AccountId) :
      (Snapshot.ofDocument doc).accounts[account]? = (doc.account? account).map (·.parent) :=
    getElem?_ofList_map_eq_find? _ _ hkeys.accounts account
  have hhost (host : HostId) : (Snapshot.ofDocument doc).hosts[host]? = doc.host? host := by
    refine (getElem?_ofList_map_eq_find? _ id hkeys.hosts host).trans ?_
    rw [Option.map_id]
    rfl
  have huser (username : String) :
      (Snapshot.ofDocument doc).users[username]? = (doc.user? username).map (·.role) :=
    getElem?_ofList_map_eq_find? _ _ hkeys.users username
  exact {
    read_eq := rfl
    size_accounts := size_ofList_map _ hkeys.accounts
    size_hosts := size_ofList_map id hkeys.hosts
    size_users := size_ofList_map _ hkeys.users
    root_eq := rfl
    contains_eq := fun account => by
      change (Snapshot.ofDocument doc).accounts.contains account = _
      rw [ExtTreeMap.contains_eq_isSome_getElem?, haccount, Option.isSome_map]
    parent_eq := fun account => by
      change (Snapshot.ofDocument doc).accounts.getD account none = _
      rw [ExtTreeMap.getD_eq_getD_getElem?, haccount]
      cases doc.account? account <;> rfl
    failoverParent_eq := fun host => congrArg (·.bind (·.failoverParent)) (hhost host)
    mem_failoverChildren_iff := Snapshot.mem_failoverChildren_ofDocument hkeys.hosts
    replicationTargets_eq := fun host =>
      congrArg (fun record? => (record?.map (·.replicationTargets)).getD ∅) (hhost host)
    classify_eq := fun username => by
      rw [Snapshot.classify, huser]
      rcases doc.user? username with _ | ⟨_, _ | _ | _⟩ <;> rfl
    assignedHosts_eq := fun username => by
      rw [Snapshot.assignedHosts, huser]
      rcases doc.user? username with _ | ⟨_, _ | _ | _⟩ <;> rfl
    permissions_eq := fun username => by
      rw [Snapshot.permissions, huser]
      rcases doc.user? username with _ | ⟨_, _ | _ | _⟩ <;> rfl
    registry_eq := hregistry
    rowCount_eq := fun _ _ => rfl
    rule_eq := (TableRules.get?_of_ofList hrules).2 }

end Store

/-! ## The ownership tree -/

/-- Where every account but the root has a parent, no walk meets an account without one. -/
theorem Hierarchy.climb_ne_detachedAccount {h : Hierarchy}
    (hparents : ∀ account, h.contains account = true → account ≠ h.root →
      (h.parent account).isSome)
    {start current : AccountId} {hops : Nat} {visited : List AccountId}
    (hcurrent : h.contains current = true) (account detached : AccountId) :
    h.climb start hops current visited ≠ .error (.detachedAccount account detached) := by
  fun_induction h.climb start hops current visited with
  | case1 => nofun
  | case2 hops current visited hroot hnone =>
      have hparent := hparents current hcurrent hroot
      simp [hnone] at hparent
  | case3 => nofun
  | case4 => nofun
  | case5 => nofun
  | case6 current visited hroot parent hparent hexists hunmet hops ih =>
      intro hclimb
      cases hrest : h.climb start hops parent (parent :: visited) with
      | ok rest =>
          rw [hrest] at hclimb
          cases hclimb
      | error fault =>
          rw [hrest] at hclimb
          exact ih (by simpa using hexists) (hrest.trans hclimb)

namespace Store

variable {doc : MetadataDocument} {store : Store}

theorem ownershipChain_ne_detachedAccount (h : ofDocument doc = .ok store)
    {record : AccountRecord} (hrecord : record ∈ doc.accounts) (account detached : AccountId) :
    store.ownershipChain record.id ≠ .error (.detachedAccount account detached) := by
  have hanswers := answersFrom_of_ofDocument h
  have hvalidate := (of_ofDocument h).1
  have hparents : ∀ account, store.snapshot.hierarchy.contains account = true →
      account ≠ store.snapshot.hierarchy.root →
      (store.snapshot.hierarchy.parent account).isSome := by
    intro account hcontains hroot
    rw [hanswers.contains_eq] at hcontains
    rw [hanswers.root_eq] at hroot
    obtain ⟨found, hfound⟩ := Option.isSome_iff_exists.mp hcontains
    have hid : found.id = account := by simpa using List.find?_some hfound
    rw [hanswers.parent_eq, hfound]
    rw [← hid] at hroot
    exact MetadataDocument.parent_isSome_of_validate hvalidate (List.mem_of_find?_eq_some hfound)
      hroot
  have hcontains : store.snapshot.hierarchy.contains record.id = true := by
    rw [hanswers.contains_eq]
    simpa [MetadataDocument.account?] using ⟨record, hrecord, rfl⟩
  intro hchain
  rw [ownershipChain, hanswers.read_eq] at hchain
  change store.snapshot.hierarchy.walk record.id = _ at hchain
  rw [Hierarchy.walk] at hchain
  cases hwalk : store.snapshot.hierarchy.climb record.id maxChainDepth record.id [record.id] with
  | ok ancestors =>
      rw [hwalk] at hchain
      cases hchain
  | error fault =>
      rw [hwalk] at hchain
      cases hchain
      exact Hierarchy.climb_ne_detachedAccount hparents hcontains account detached hwalk

/-! ## The topology -/

theorem mem_hosts_of_related (h : ofDocument doc = .ok store) {host : HostRecord}
    (hhost : host ∈ doc.hosts) {other : HostId}
    (hother : store.snapshot.topology.failoverParent host.id = some other
      ∨ other ∈ store.snapshot.topology.failoverChildren host.id
      ∨ other ∈ store.snapshot.topology.replicationTargets host.id) :
    ∃ record ∈ doc.hosts, record.id = other := by
  have hanswers := answersFrom_of_ofDocument h
  have hvalidate := (of_ofDocument h).1
  have hfound : doc.host? host.id = some host :=
    find?_eq_some_of_mem (MetadataDocument.hasDistinctKeys_of_validate hvalidate).hosts hhost
  rcases hother with hparent | hchild | htarget
  · rw [hanswers.failoverParent_eq, hfound, Option.bind_some] at hparent
    refine MetadataDocument.exists_host_of_mem_related hvalidate hhost ?_
    simp [HostRecord.related, hparent]
  · obtain ⟨record, hrecord, hid, -⟩ := (hanswers.mem_failoverChildren_iff _ _).mp hchild
    exact ⟨record, hrecord, hid⟩
  · rw [hanswers.replicationTargets_eq, hfound] at htarget
    refine MetadataDocument.exists_host_of_mem_related hvalidate hhost ?_
    simp only [Option.map_some, Option.getD_some] at htarget
    simp [HostRecord.related, htarget]

end Store

/-! ## The bridge -/

namespace VersionQuery

variable {α β : Type}

/-- A question fails on account of the metadata only where the view did. -/
def PassesOn (query : VersionQuery α) : Prop :=
  ∀ (view : Except Fault View) (cause : MetadataCause),
    query.answer view = .error (.metadata cause) → view = .error (.metadata cause)

theorem passesOn_whole (version : String) : (whole version).PassesOn :=
  fun _ _ => id

theorem passesOn_readOff (version : String) (read : View → Int32) :
    (readOff version read).PassesOn := by
  intro view cause h
  rcases view with fault | view
  · cases fault with
    | metadata other =>
        cases h
        rfl
    | _ => cases h
  · cases h

theorem PassesOn.insist {query : VersionQuery Int32} (hquery : query.PassesOn)
    (kind : OrdinalKind) (ordinal : Int32) : (query.insist kind ordinal).PassesOn := by
  intro view cause h
  apply hquery view cause
  rw [VersionQuery.insist] at h
  simp only at h
  split at h
  · split at h <;> cases h
  · next hanswer =>
    rw [hanswer]
    exact h

theorem PassesOn.map {query : VersionQuery α} (hquery : query.PassesOn) (f : α → β) :
    (query.map f).PassesOn := by
  intro view cause h
  apply hquery view cause
  change (query.answer view).map f = _ at h
  cases hanswer : query.answer view with
  | ok value =>
      rw [hanswer] at h
      cases h
  | error fault =>
      rw [hanswer] at h
      cases h
      rfl

/-- A translation finds in a view what it reads off. -/
theorem on_readOff {version : String} {reading : Except Fault Catalog} {view : View}
    (h : (reading >>= (·.view version)) = .ok view) (read : View → Int32) (f : Int32 → α) :
    ((readOff version read).map f).on reading = .ok (f (read view)) := by
  change ((readOff version read).map f).answer (reading >>= (·.view version)) = _
  rw [h]
  rfl

/-- A translation finds nothing at a version that is not known. -/
theorem on_readOff_unknown {version : String} {reading : Except Fault Catalog}
    (h : (reading >>= (·.view version)) = .error (.unknownProtocolVersion version))
    (read : View → Int32) (f : Int32 → α) :
    ((readOff version read).map f).on reading = .ok (f unmapped) := by
  change ((readOff version read).map f).answer (reading >>= (·.view version)) = _
  rw [h]
  rfl

/-- The whole view is what the reading gives of it. -/
theorem on_whole (version : String) (reading : Except Fault Catalog) (f : View → α) :
    ((whole version).map f).on reading = (reading >>= (·.view version)).map f :=
  rfl

end VersionQuery

namespace BridgeLookup

/-- Whether a lookup carries a number of a version over to another one. -/
def Translates (version : String) : BridgeLookup → Prop
  | tableToCanonical version' _ | tableToOrdinal version' _ | columnToCanonical version' _ _
  | columnToOrdinal version' _ _ => version' = version
  | view _ | requireTable .. | requireColumn .. | tableName _ => False

theorem passesOn_of_query {lookup : BridgeLookup} {query : VersionQuery BridgeFinding}
    (h : lookup.query = .inl query) : query.PassesOn := by
  cases lookup with
  | view version =>
      obtain rfl := Sum.inl.inj h
      exact (VersionQuery.passesOn_whole version).map _
  | tableToCanonical | tableToOrdinal | columnToCanonical | columnToOrdinal =>
      obtain rfl := Sum.inl.inj h
      exact (VersionQuery.passesOn_readOff _ _).map _
  | requireTable | requireColumn =>
      obtain rfl := Sum.inl.inj h
      exact ((VersionQuery.passesOn_readOff _ _).insist _ _).map _
  | tableName => cases h

/-- A translation reads a number off the view. -/
theorem query_of_translates {version : String} {lookup : BridgeLookup}
    (h : lookup.Translates version) :
    ∃ read, lookup.query = .inl ((VersionQuery.readOff version read).map .number) := by
  cases lookup with
  | tableToCanonical | tableToOrdinal | columnToCanonical | columnToOrdinal =>
      obtain rfl := h
      exact ⟨_, rfl⟩
  | view | requireTable | requireColumn | tableName => cases h

end BridgeLookup

namespace BridgeWorld

/-- A bridge has the view of each version of a document and knows no other version, and in no
lookup does it hold the metadata to blame. -/
structure AnswersFrom (w : BridgeWorld) (doc : MetadataDocument) : Prop where
  view_of_known : ∀ version ∈ doc.protocolVersions,
    ∃ view, w.find (.view version.token) = .ok (.view view) ∧ view.version = version
  number_of_known : ∀ version ∈ doc.protocolVersions, ∀ lookup : BridgeLookup,
    lookup.Translates version.token → ∃ value, w.find lookup = .ok (.number value)
  view_of_unknown : ∀ token, token ∉ doc.protocolVersions.map (·.token) →
    w.find (.view token) = .error (.unknownProtocolVersion token)
  unmapped_of_unknown : ∀ token, token ∉ doc.protocolVersions.map (·.token) →
    ∀ lookup : BridgeLookup, lookup.Translates token → w.find lookup = .ok (.number unmapped)
  find_ne_metadata : ∀ lookup cause, w.find lookup ≠ .error (.metadata cause)

end BridgeWorld

/-- The store below a bridge stays as it is, but may be out of reach for a time. -/
def Store.OnlyOutages (store : Store) (steps : List BridgeStep) : Prop :=
  ∀ registry, BridgeStep.registry registry ∈ steps →
    registry = store.registry ∨ registry = { store with isAvailable := false : Store }.registry

namespace Store

variable {doc : MetadataDocument} {store : Store}

theorem view_of_known (h : ofDocument doc = .ok store) {version : ProtocolVersion}
    (hversion : version ∈ doc.protocolVersions) :
    ∃ view, (Catalog.load store.registry >>= (·.view version.token)) = .ok view
      ∧ view.version = version := by
  have hnodup := (MetadataDocument.hasDistinctKeys_of_validate (of_ofDocument h).1).versions
  rw [view_of_ofDocument h, find?_eq_some_of_mem hnodup hversion]
  exact ⟨_, rfl, rfl⟩

theorem view_of_unknown (h : ofDocument doc = .ok store) {token : String}
    (htoken : token ∉ doc.protocolVersions.map (·.token)) :
    (Catalog.load store.registry >>= (·.view token)) = .error (.unknownProtocolVersion token) := by
  have hnone : doc.protocolVersions.find? (·.token == token) = none := by
    rw [List.find?_eq_none]
    simpa using htoken
  rw [view_of_ofDocument h, hnone]

theorem view_ne_metadata (h : ofDocument doc = .ok store) (token : String)
    (cause : MetadataCause) :
    (Catalog.load store.registry >>= (·.view token)) ≠ .error (.metadata cause) := by
  rw [view_of_ofDocument h]
  split <;> nofun

/-- While the store can be reached, a bridge over it finds what the document says, also after
outages. -/
theorem find_eq_of_onlyOutages {steps : List BridgeStep} (hsteps : store.OnlyOutages steps)
    (hreached : ((BridgeWorld.new store.registry).run steps).registry = store.registry)
    (lookup : BridgeLookup) :
    ((BridgeWorld.new store.registry).run steps).find lookup =
      lookup.on (Catalog.load store.registry) := by
  have hagrees : ((BridgeWorld.new store.registry).run steps).bridge.Agrees
      (Catalog.load store.registry) := by
    refine BridgeWorld.agrees_run_of_loads (Bridge.isEmpty_new.agrees _) (fun _ => id) ?_
    intro registry hregistry loaded hloaded
    rcases hsteps registry hregistry with rfl | rfl
    · exact hloaded
    · cases hloaded
  rw [BridgeWorld.find, hreached]
  exact hagrees.gives.lookUp_fst lookup

theorem bridge_answersFrom_of_ofDocument (h : ofDocument doc = .ok store)
    {steps : List BridgeStep} (hsteps : store.OnlyOutages steps)
    (hreached : ((BridgeWorld.new store.registry).run steps).registry = store.registry) :
    ((BridgeWorld.new store.registry).run steps).AnswersFrom doc := by
  have hfind := find_eq_of_onlyOutages hsteps hreached
  have hon {lookup : BridgeLookup} {query : VersionQuery BridgeFinding}
      (hquery : lookup.query = .inl query) :
      lookup.on (Catalog.load store.registry) = query.on (Catalog.load store.registry) := by
    rw [BridgeLookup.on, hquery]
  exact {
    view_of_known := fun version hversion => by
      obtain ⟨view, hview, hsame⟩ := view_of_known h hversion
      refine ⟨view, ?_, hsame⟩
      rw [hfind, hon rfl, VersionQuery.on_whole, hview]
      rfl
    number_of_known := fun version hversion lookup htranslates => by
      obtain ⟨view, hview, -⟩ := view_of_known h hversion
      obtain ⟨read, hquery⟩ := BridgeLookup.query_of_translates htranslates
      exact ⟨read view, by rw [hfind, hon hquery, VersionQuery.on_readOff hview]⟩
    view_of_unknown := fun token htoken => by
      rw [hfind, hon rfl, VersionQuery.on_whole, view_of_unknown h htoken]
      rfl
    unmapped_of_unknown := fun token htoken lookup htranslates => by
      obtain ⟨read, hquery⟩ := BridgeLookup.query_of_translates htranslates
      rw [hfind, hon hquery, VersionQuery.on_readOff_unknown (view_of_unknown h htoken)]
    find_ne_metadata := fun lookup cause hblame => by
      rw [hfind] at hblame
      cases hquery : lookup.query with
      | inl query =>
          rw [hon hquery] at hblame
          exact view_ne_metadata h _ _ (BridgeLookup.passesOn_of_query hquery _ _ hblame)
      | inr table =>
          obtain ⟨catalog, hload⟩ := load_of_ofDocument h
          rw [BridgeLookup.on, hquery, hload] at hblame
          cases hblame }

/-- What is read of a store that was made from a document, and not changed since, is what the
document says. Its records have distinct keys and each is found under its own; a bridge over the
store has the view of every version and never blames the metadata, whatever outages it has seen; no
account of the document leads up to one without a parent; and no host of the document is related to
a host that is none of the document. -/
theorem consistent_of_ofDocument (h : ofDocument doc = .ok store) :
    doc.HasDistinctKeys
      ∧ store.AnswersFrom doc
      ∧ (∀ steps, store.OnlyOutages steps →
          let w := (BridgeWorld.new store.registry).run steps
          w.registry = store.registry → w.AnswersFrom doc)
      ∧ (∀ record ∈ doc.accounts, ∀ account detached,
          store.ownershipChain record.id ≠ .error (.detachedAccount account detached))
      ∧ ∀ host ∈ doc.hosts, ∀ other,
          store.snapshot.topology.failoverParent host.id = some other
            ∨ other ∈ store.snapshot.topology.failoverChildren host.id
            ∨ other ∈ store.snapshot.topology.replicationTargets host.id →
          ∃ record ∈ doc.hosts, record.id = other := by
  refine ⟨MetadataDocument.hasDistinctKeys_of_validate (of_ofDocument h).1,
    answersFrom_of_ofDocument h, ?_, ?_, ?_⟩
  · exact fun steps hsteps hreached => bridge_answersFrom_of_ofDocument h hsteps hreached
  · exact fun record hrecord => ownershipChain_ne_detachedAccount h hrecord
  · exact fun host hhost other => mem_hosts_of_related h hhost

/-- Two accounts, a pair of hosts, two versions and an outage. -/
theorem consistent_of_ofDocument_of_pair :
    let doc : MetadataDocument := {
      root := ⟨1⟩
      accounts := [{ id := ⟨2⟩, parent := some ⟨1⟩ }, { id := ⟨1⟩ }]
      hosts := [{ id := ⟨1⟩, failoverParent := some ⟨2⟩ },
        { id := ⟨2⟩, replicationTargets := {⟨1⟩} }]
      users := [⟨"ops", .scopedOperator {⟨1⟩} ∅⟩]
      protocolVersions := Catalog.twoVersions
      tables := Catalog.secondEdition }
    ∃ store, ofDocument doc = .ok store
      ∧ store.AnswersFrom doc
      ∧ ((BridgeWorld.new store.registry).run
          [.look (.tableName 5), .registry { store with isAvailable := false : Store }.registry,
            .reset, .look (.view "v1"), .registry store.registry]).AnswersFrom doc
      ∧ (∀ account detached,
          store.ownershipChain ⟨2⟩ ≠ .error (.detachedAccount account detached))
      ∧ ∀ other ∈ store.snapshot.topology.replicationTargets ⟨2⟩,
          ∃ record ∈ doc.hosts, record.id = other := by
  intro doc
  cases hstore : ofDocument doc with
  | error cause =>
      have haccepted : (ofDocument doc).isOk = true := by decide +kernel
      rw [hstore] at haccepted
      cases haccepted
  | ok store =>
      obtain ⟨-, hanswers, hbridge, hchain, htopology⟩ := consistent_of_ofDocument hstore
      refine ⟨store, rfl, hanswers, hbridge _ ?_ rfl, hchain { id := ⟨2⟩, parent := some ⟨1⟩ } ?_,
        ?_⟩
      · intro registry hregistry
        simp only [List.mem_cons, reduceCtorEq, BridgeStep.registry.injEq, List.not_mem_nil,
          or_false, false_or] at hregistry
        exact hregistry.symm
      · exact List.mem_cons_self
      · intro other hother
        exact htopology _ (List.mem_cons_of_mem _ List.mem_cons_self) other (.inr (.inr hother))

end Store

end ControlPlane
