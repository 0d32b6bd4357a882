/-
# Who sees which rows

The way from an identity and a table to a row count leads through a rule, a scope, a filter
and the rows, and each of these looks at the kind of rule and the kind of identity for
itself. `Sees` says in one place which rows an identity should see, by reachability in the
tree and among the hosts, and the master is shown to count exactly those.

A tenant's walk may report an inconsistency of the tree. The request then fails with that
report, and never as if access were refused.
-/

import ControlPlane.Proofs.Master.Answers
import ControlPlane.Proofs.Master.Derivation

namespace ControlPlane

open Std (ExtTreeSet)

/-! ## The specification -/

namespace Snapshot

/-- Whether an identity sees a row of a table with a rule that admits it. -/
def Sees (s : Snapshot) (rule : TableRule) (identity : Identity) (row : RowRecord) : Prop :=
  (∃ username, identity = .operator username)
  ∨ rule.scoping = .unrestricted
  ∨ (∃ permission, rule.scoping = .permissionGated permission)
  ∨ (∃ username account owner, identity = .tenant username account
      ∧ row.account = some owner ∧ s.hierarchy.Above account owner)
  ∨ (∃ username hosts permissions host, identity = .scopedOperator username hosts permissions
      ∧ row.host = some host ∧ ∃ assigned ∈ hosts, s.Reveals rule.scopeOptions assigned host)

open Classical in
/-- How many rows of a table an identity sees. -/
noncomputable def visibleCount (s : Snapshot) (rule : TableRule) (identity : Identity)
    (table : String) : Nat :=
  s.rows.countP fun row => decide (row.table = table ∧ s.Sees rule identity row)

/-- The report of a tenant's walk, where a table is scoped and the walk has one. -/
def Reports (s : Snapshot) (rule : TableRule) (identity : Identity) (fault : Fault) : Prop :=
  rule.isScoped = true
    ∧ ∃ username account, identity = .tenant username account
      ∧ s.hierarchy.walk account = .error fault

end Snapshot

/-- Whether a table has a rule and the rule admits an identity. -/
def TableRules.Admit (rules : TableRules) (identity : Identity) (table : String) : Prop :=
  ∃ rule, rules.get? table = some rule ∧ rule.admits identity = true

/-! ## Scopes and filters -/

/-- Whether a scope allows a row. A row without the value that counts is not allowed. -/
def AccessScope.AllowsRow (scope : AccessScope) (row : RowRecord) : Prop :=
  match scope with
  | .unrestricted => True
  | .accounts ids => ∃ owner, row.account = some owner ∧ owner ∈ ids
  | .hosts ids => ∃ host, row.host = some host ∧ host ∈ ids

/-- Whether a scope is of the kind that is computed for an identity. -/
def AccessScope.Suits (scope : AccessScope) (identity : Identity) : Prop :=
  match scope with
  | .unrestricted => True
  | .accounts _ => ∃ username account, identity = .tenant username account
  | .hosts _ => ∃ username hosts permissions, identity = .scopedOperator username hosts permissions

/-- A rule that admits an identity has a filter for the identity's scope, and the filter lets
through what the scope allows. -/
theorem TableRule.parameterize_of_suits {rule : TableRule} {identity : Identity}
    {scope : AccessScope} (hscoped : rule.isScoped = true) (hadmits : rule.admits identity = true)
    (hsuits : scope.Suits identity) :
    ∃ filter, rule.parameterize scope = .ok filter
      ∧ ∀ row : RowRecord, row.isVisible filter = true ↔ scope.AllowsRow row := by
  obtain ⟨table, scoping, includeReplication⟩ := rule
  cases scope with
  | unrestricted =>
      refine ⟨.all, ?_, fun row => ⟨fun _ => trivial, fun _ => rfl⟩⟩
      cases scoping <;> rfl
  | accounts ids =>
      obtain ⟨username, account, rfl⟩ := hsuits
      cases scoping with
      | ownershipChain ownerColumn hostColumn =>
          exact ⟨.accountIn ownerColumn ids, rfl, fun row => by
            simp [RowRecord.isVisible, AccessScope.AllowsRow, Option.any_eq_true]⟩
      | hostTopology hostColumn => cases hadmits
      | unrestricted => cases hscoped
      | permissionGated permission => cases hscoped
  | hosts ids =>
      obtain ⟨username, hosts, permissions, rfl⟩ := hsuits
      cases scoping with
      | ownershipChain ownerColumn hostColumn =>
          cases hostColumn with
          | none => cases hadmits
          | some column =>
              exact ⟨.hostIn column ids, rfl, fun row => by
                simp [RowRecord.isVisible, AccessScope.AllowsRow, Option.any_eq_true]⟩
      | hostTopology hostColumn =>
          exact ⟨.hostIn hostColumn ids, rfl, fun row => by
            simp [RowRecord.isVisible, AccessScope.AllowsRow, Option.any_eq_true]⟩
      | unrestricted => cases hscoped
      | permissionGated permission => cases hscoped

/-- Where a table is not scoped, nothing is filtered. -/
theorem TableRule.parameterize_of_not_isScoped {rule : TableRule}
    (hscoped : rule.isScoped = false) (scope : AccessScope) :
    rule.parameterize scope = .ok .all := by
  obtain ⟨table, scoping, includeReplication⟩ := rule
  cases scoping <;> first | rfl | cases hscoped

/-! ## What an identity sees -/

namespace Snapshot

variable {s : Snapshot} {rule : TableRule} {row : RowRecord}

theorem sees_of_not_isScoped (hscoped : rule.isScoped = false) (identity : Identity) :
    s.Sees rule identity row := by
  unfold TableRule.isScoped at hscoped
  split at hscoped
  · cases hscoped
  · cases hscoped
  · next hscoping => exact .inr (.inl hscoping)
  · next permission hscoping => exact .inr (.inr (.inl ⟨permission, hscoping⟩))

/-- On a scoped table, the kind of identity decides. -/
theorem sees_iff_of_isScoped (hscoped : rule.isScoped = true) (identity : Identity) :
    s.Sees rule identity row ↔
      match identity with
      | .operator _ => True
      | .tenant _ account =>
          ∃ owner, row.account = some owner ∧ s.hierarchy.Above account owner
      | .scopedOperator _ hosts _ =>
          ∃ host, row.host = some host
            ∧ ∃ assigned ∈ hosts, s.Reveals rule.scopeOptions assigned host := by
  have hunrestricted : rule.scoping ≠ .unrestricted := by
    intro hscoping
    simp [TableRule.isScoped, hscoping] at hscoped
  have hgated (permission : String) : rule.scoping ≠ .permissionGated permission := by
    intro hscoping
    simp [TableRule.isScoped, hscoping] at hscoped
  cases identity <;> simp [Sees, hunrestricted, hgated, and_assoc]

end Snapshot

/-! ## The way through the store -/

namespace Store

variable {store : Store} {identity : Identity} {table : String} {rule : TableRule}

theorem admittedRule_of_admits (hrule : store.rules.get? table = some rule)
    (hadmits : rule.admits identity = true) :
    store.admittedRule identity table = .ok rule := by
  rw [admittedRule, hrule]
  exact if_pos hadmits

theorem admittedRule_of_not_admit (hrefused : ¬ store.rules.Admit identity table) :
    store.admittedRule identity table = .error .noAccess := by
  rw [admittedRule]
  cases hrule : store.rules.get? table with
  | none => rfl
  | some rule => exact if_neg fun hadmits => hrefused ⟨rule, hrule, hadmits⟩

/-- The scope of an admitted identity on a scoped table allows what the identity sees, unless
its walk reports an inconsistency. -/
theorem computeScope_cases (havailable : store.isAvailable = true)
    (hscoped : rule.isScoped = true) (identity : Identity) :
    (∃ fault, store.snapshot.Reports rule identity fault
        ∧ store.computeScope identity rule.scopeOptions = .error fault)
    ∨ ((∀ fault, ¬ store.snapshot.Reports rule identity fault)
        ∧ ∃ scope, store.computeScope identity rule.scopeOptions = .ok scope
          ∧ scope.Suits identity
          ∧ ∀ row, scope.AllowsRow row ↔ store.snapshot.Sees rule identity row) := by
  have hread : store.read = .ok store.snapshot := if_pos havailable
  cases identity with
  | operator username =>
      refine .inr ⟨?_, .unrestricted, rfl, trivial, fun row => ?_⟩
      · rintro fault ⟨-, other, account, hidentity, -⟩
        cases hidentity
      · rw [Snapshot.sees_iff_of_isScoped hscoped]
        rfl
  | tenant username account =>
      cases hwalk : store.snapshot.hierarchy.walk account with
      | error fault =>
          refine .inl ⟨fault, ⟨hscoped, username, account, rfl, hwalk⟩, ?_⟩
          simp only [computeScope, ownershipChain, hread, bind, Except.bind, hwalk]
      | ok chain =>
          refine .inr ⟨?_, .accounts chain.toSet, ?_, ⟨username, account, rfl⟩, fun row => ?_⟩
          · rintro fault ⟨-, other, account', hidentity, hfault⟩
            obtain ⟨-, rfl⟩ := Identity.tenant.inj hidentity
            cases hwalk.symm.trans hfault
          · simp only [computeScope, ownershipChain, hread, bind, Except.bind, hwalk]
            rfl
          · rw [Snapshot.sees_iff_of_isScoped hscoped]
            simp only [AccessScope.AllowsRow, Hierarchy.mem_toSet_of_walk_eq_ok hwalk]
  | scopedOperator username hosts permissions =>
      refine .inr ⟨?_, .hosts (store.snapshot.topology.expand hosts rule.scopeOptions), ?_,
        ⟨username, hosts, permissions, rfl⟩, fun row => ?_⟩
      · rintro fault ⟨-, other, account, hidentity, -⟩
        cases hidentity
      · simp only [computeScope, expandHosts_eq hread]
        rfl
      · rw [Snapshot.sees_iff_of_isScoped hscoped]
        simp only [AccessScope.AllowsRow, Snapshot.mem_expand_iff]

theorem authorize_of_admits (hrule : store.rules.get? table = some rule)
    (hadmits : rule.admits identity = true) :
    store.authorize identity table =
      if rule.isScoped then store.computeScope identity rule.scopeOptions
      else .ok .unrestricted := by
  rw [authorize, admittedRule_of_admits hrule hadmits]
  rfl

theorem scopedQuery_of_admits (hrule : store.rules.get? table = some rule)
    (hadmits : rule.admits identity = true) :
    store.scopedQuery identity table = store.authorize identity table >>= rule.parameterize := by
  rw [scopedQuery, admittedRule_of_admits hrule hadmits]
  rfl

theorem scopedQuery_of_not_admit (hrefused : ¬ store.rules.Admit identity table) :
    store.scopedQuery identity table = .error .noAccess := by
  rw [scopedQuery, authorize, admittedRule_of_not_admit hrefused]
  rfl

/-- The filter of an admitted identity lets through what the identity sees, unless its walk
reports an inconsistency. -/
theorem scopedQuery_cases (havailable : store.isAvailable = true)
    (hrule : store.rules.get? table = some rule) (hadmits : rule.admits identity = true) :
    (∃ fault, store.snapshot.Reports rule identity fault
        ∧ store.scopedQuery identity table = .error fault)
    ∨ ((∀ fault, ¬ store.snapshot.Reports rule identity fault)
        ∧ ∃ filter, store.scopedQuery identity table = .ok filter
          ∧ ∀ row : RowRecord,
            row.isVisible filter = true ↔ store.snapshot.Sees rule identity row) := by
  rw [scopedQuery_of_admits hrule hadmits, authorize_of_admits hrule hadmits]
  cases hscoped : rule.isScoped with
  | false =>
      refine .inr ⟨fun fault hreports => ?_, .all,
        TableRule.parameterize_of_not_isScoped hscoped .unrestricted, fun row => ?_⟩
      · cases hscoped.symm.trans hreports.1
      · exact iff_of_true rfl (Snapshot.sees_of_not_isScoped hscoped identity)
  | true =>
      rcases computeScope_cases havailable hscoped identity with
        ⟨fault, hreports, herror⟩ | ⟨hquiet, scope, hok, hsuits, hallows⟩
      · exact .inl ⟨fault, hreports, by rw [if_pos rfl, herror]; rfl⟩
      · obtain ⟨filter, hfilter, hvisible⟩ :=
          TableRule.parameterize_of_suits hscoped hadmits hsuits
        refine .inr ⟨hquiet, filter, ?_, fun row => (hvisible row).trans (hallows row)⟩
        rw [if_pos rfl, hok]
        exact hfilter

/-- During an outage no admitted identity is refused: the filter needs no store, or the store
is reported. -/
theorem scopedQuery_of_unavailable (houtage : store.isAvailable = false)
    (hrule : store.rules.get? table = some rule) (hadmits : rule.admits identity = true) :
    (∃ filter, store.scopedQuery identity table = .ok filter)
    ∨ store.scopedQuery identity table = .error (.metadata .storeUnavailable) := by
  have hread := read_of_not_isAvailable houtage
  rw [scopedQuery_of_admits hrule hadmits, authorize_of_admits hrule hadmits]
  cases hscoped : rule.isScoped with
  | false => exact .inl ⟨.all, TableRule.parameterize_of_not_isScoped hscoped .unrestricted⟩
  | true =>
      cases identity with
      | operator username =>
          have hsuits : AccessScope.unrestricted.Suits (.operator username) := trivial
          obtain ⟨filter, hfilter, -⟩ := TableRule.parameterize_of_suits hscoped hadmits hsuits
          exact .inl ⟨filter, hfilter⟩
      | tenant username account =>
          right
          simp only [if_true, computeScope, ownershipChain, hread, bind, Except.bind]
      | scopedOperator username hosts permissions =>
          by_cases hempty : hosts.isEmpty = true
          · left
            have hsuits : (AccessScope.hosts ∅).Suits
                (.scopedOperator username hosts permissions) :=
              ⟨username, hosts, permissions, rfl⟩
            obtain ⟨filter, hfilter, -⟩ := TableRule.parameterize_of_suits hscoped hadmits hsuits
            refine ⟨filter, ?_⟩
            simp only [if_true, computeScope, expandHosts, hempty, bind, Except.bind]
            exact hfilter
          · right
            simp only [if_true, computeScope, expandHosts, hempty, hread, bind, Except.bind]
            rfl

theorem rowCount_of_scopedQuery_ok {s : Snapshot} {filter : QueryScope}
    (hread : store.read = .ok s) (hquery : store.scopedQuery identity table = .ok filter) :
    store.rowCount identity table = .ok (s.rowCount table filter) := by
  rw [rowCount, hquery, hread]
  rfl

theorem rowCount_of_scopedQuery_error {fault : Fault}
    (hquery : store.scopedQuery identity table = .error fault) :
    store.rowCount identity table = .error fault := by
  rw [rowCount, hquery]
  rfl

theorem rowCount_of_unavailable (houtage : store.isAvailable = false)
    (hrule : store.rules.get? table = some rule) (hadmits : rule.admits identity = true) :
    store.rowCount identity table = .error (.metadata .storeUnavailable) := by
  rcases scopedQuery_of_unavailable houtage hrule hadmits with ⟨filter, hquery⟩ | hquery
  · have hread := read_of_not_isAvailable houtage
    rw [rowCount, hquery, hread]
    rfl
  · exact rowCount_of_scopedQuery_error hquery

/-- An admitted identity is never refused, whatever the store says. -/
theorem ne_noAccess_of_admits (hrule : store.rules.get? table = some rule)
    (hadmits : rule.admits identity = true) :
    store.scopedQuery identity table ≠ .error .noAccess
      ∧ store.rowCount identity table ≠ .error .noAccess := by
  cases havailable : store.isAvailable with
  | false =>
      rw [rowCount_of_unavailable havailable hrule hadmits]
      rcases scopedQuery_of_unavailable havailable hrule hadmits with ⟨filter, hquery⟩ | hquery
      · simp [hquery]
      · simp [hquery]
  | true =>
      rcases scopedQuery_cases havailable hrule hadmits with
        ⟨fault, ⟨-, username, account, -, hwalk⟩, hquery⟩ | ⟨-, filter, hquery, -⟩
      · have hne : fault ≠ .noAccess := by
          rintro rfl
          cases Hierarchy.isInconsistency_of_walk_eq_error hwalk
        rw [rowCount_of_scopedQuery_error hquery, hquery]
        simp [hne]
      · rw [rowCount_of_scopedQuery_ok (if_pos havailable) hquery, hquery]
        simp

/-- Access is refused exactly where no rule admits the identity. -/
theorem refuses_iff (store : Store) (identity : Identity) (table : String) :
    (store.scopedQuery identity table = .error .noAccess ↔ ¬ store.rules.Admit identity table)
      ∧ (store.rowCount identity table = .error .noAccess
        ↔ ¬ store.rules.Admit identity table) := by
  by_cases hadmit : store.rules.Admit identity table
  · obtain ⟨rule, hrule, hadmits⟩ := hadmit
    obtain ⟨hquery, hcount⟩ := ne_noAccess_of_admits hrule hadmits
    have hadmit : store.rules.Admit identity table := ⟨rule, hrule, hadmits⟩
    exact ⟨iff_of_false hquery (not_not_intro hadmit), iff_of_false hcount (not_not_intro hadmit)⟩
  · have hquery := scopedQuery_of_not_admit hadmit
    exact ⟨iff_of_true hquery hadmit,
      iff_of_true (rowCount_of_scopedQuery_error hquery) hadmit⟩

end Store

theorem Snapshot.rowCount_eq_ofNat_visibleCount {s : Snapshot} {rule : TableRule}
    {identity : Identity} {filter : QueryScope}
    (hvisible : ∀ row : RowRecord, row.isVisible filter = true ↔ s.Sees rule identity row)
    (table : String) :
    s.rowCount table filter = UInt64.ofNat (s.visibleCount rule identity table) := by
  unfold rowCount visibleCount
  congr 1
  apply List.countP_congr
  intro row _
  simp [hvisible]

/-! ## The master -/

namespace Master

/-- What a cold master keeps: nothing. -/
private def nothing : Kept where
  identity _ _ := False
  scope _ _ := False
  rowCount _ _ := False
  bridge _ := True

/-- A cold master answers as if it had no caches. -/
theorem answers_of_isCold {master : Master} (hcold : master.IsCold) (env : Surroundings)
    (hrules : master.rules = env.store.rules) (identity : Identity) (table : String) :
    (master.scopedQuery env identity table).1 = env.store.scopedQuery identity table
      ∧ (master.rowCount env identity table).1 = env.store.rowCount identity table := by
  have hkeeps : master.Keeps nothing master := keeps_of_isCold hcold trivial
  exact ⟨hkeeps.scopedQuery_fst hrules (fun _ _ _ _ h => h.elim) table,
    hkeeps.rowCount_fst hrules (fun _ _ _ _ h => h.elim) table fun _ _ h => h.elim⟩

/-- Over every state of the store, every rule set, identity and table, a cold master refuses
exactly where the table has no rule that admits the identity. Otherwise it gives a filter and
counts exactly the rows that the identity sees, unless the tenant's walk reports an
inconsistency, which is then reported, or the store cannot be reached, which is reported as
soon as rows are to be counted. -/
theorem rowCount_eq_visibleCount {master : Master} (hcold : master.IsCold) {store : Store}
    (hrules : master.rules = store.rules) (now : Tick) (identity : Identity) (table : String) :
    let query := (master.scopedQuery ⟨store, now⟩ identity table).1
    let count := (master.rowCount ⟨store, now⟩ identity table).1
    (query = .error .noAccess ↔ ¬ store.rules.Admit identity table)
    ∧ (count = .error .noAccess ↔ ¬ store.rules.Admit identity table)
    ∧ ∀ rule, store.rules.get? table = some rule → rule.admits identity = true →
      (store.isAvailable = true →
        (∀ fault, store.snapshot.Reports rule identity fault →
          fault.isInconsistency = true ∧ query = .error fault ∧ count = .error fault)
        ∧ ((∀ fault, ¬ store.snapshot.Reports rule identity fault) →
          let visible := store.snapshot.visibleCount rule identity table
          (∃ filter, query = .ok filter)
          ∧ count = .ok (UInt64.ofNat visible)
          ∧ (store.snapshot.rows.length < UInt64.size → (UInt64.ofNat visible).toNat = visible)))
      ∧ (store.isAvailable = false → count = .error (.metadata .storeUnavailable)) := by
  obtain ⟨hquery, hcount⟩ := answers_of_isCold hcold ⟨store, now⟩ hrules identity table
  obtain ⟨hrefuses, hrefuses'⟩ := store.refuses_iff identity table
  simp only [hquery, hcount]
  refine ⟨hrefuses, hrefuses', fun rule hrule hadmits => ⟨fun havailable => ?_, fun houtage => ?_⟩⟩
  · rcases Store.scopedQuery_cases havailable hrule hadmits with
      ⟨fault, hreports, herror⟩ | ⟨hquiet, filter, hok, hvisible⟩
    · refine ⟨fun other hother => ?_, fun hquiet => absurd hreports (hquiet fault)⟩
      obtain ⟨-, username, account, rfl, hwalk⟩ := hreports
      obtain ⟨-, username', account', hidentity, hwalk'⟩ := hother
      obtain ⟨-, rfl⟩ := Identity.tenant.inj hidentity
      obtain rfl : fault = other := Except.error.inj (hwalk.symm.trans hwalk')
      exact ⟨Hierarchy.isInconsistency_of_walk_eq_error hwalk, herror,
        Store.rowCount_of_scopedQuery_error herror⟩
    · refine ⟨fun fault hreports => absurd hreports (hquiet fault), fun _ => ?_⟩
      refine ⟨⟨filter, hok⟩, ?_, ?_⟩
      · rw [Store.rowCount_of_scopedQuery_ok (if_pos havailable) hok,
          Snapshot.rowCount_eq_ofNat_visibleCount hvisible]
      · intro hfits
        exact UInt64.toNat_ofNat_of_lt' (Nat.lt_of_le_of_lt List.countP_le_length hfits)
  · exact Store.rowCount_of_unavailable houtage hrule hadmits

/-! ### A tenant two links below the root -/

/-- Invoices belong to accounts. -/
def invoiceRule : TableRule where
  table := "invoices"
  scoping := .ownershipChain "account_id" none

/-- Three accounts in a chain; of three invoices, one is owned within the chain, one outside
and one by nobody. -/
def invoiceStore : Store where
  snapshot := .ofDocument {
    root := ⟨1⟩
    accounts := [{ id := ⟨1⟩ }, { id := ⟨2⟩, parent := some ⟨1⟩ },
      { id := ⟨3⟩, parent := some ⟨2⟩ }]
    rows := [{ table := "invoices", account := some ⟨2⟩ },
      { table := "invoices", account := some ⟨9⟩ }, { table := "invoices" }] }
  rules := { byTable := Std.ExtTreeMap.ofList [("invoices", invoiceRule)] }

/-- A master with the rules of a store, before its first request. -/
def unused (store : Store) : Master where
  rules := store.rules
  invalidation := .builtin
  resolver := { identities := { name := "identities" }, scopes := { name := "scopes" } }
  rowCounts := { name := "row-counts" }
  gate := {}

theorem rowCount_eq_visibleCount_of_chain :
    let tenant : Identity := .tenant "ana" ⟨3⟩
    let count := ((unused invoiceStore).rowCount ⟨invoiceStore, .zero⟩ tenant "invoices").1
    (unused invoiceStore).IsCold ∧ (unused invoiceStore).rules = invoiceStore.rules
      ∧ count =
        .ok (UInt64.ofNat (invoiceStore.snapshot.visibleCount invoiceRule tenant "invoices"))
      ∧ count = .ok 1 := by
  have hcold : (unused invoiceStore).IsCold := ⟨rfl, rfl, rfl⟩
  have hwalk : invoiceStore.snapshot.hierarchy.walk ⟨3⟩ = .ok ⟨⟨3⟩, [⟨2⟩, ⟨1⟩]⟩ := rfl
  have hvisible := (rowCount_eq_visibleCount hcold rfl .zero (.tenant "ana" ⟨3⟩)
    "invoices").2.2 _ rfl rfl
  refine ⟨hcold, rfl, ((hvisible.1 rfl).2 ?_).2.1, rfl⟩
  rintro fault ⟨-, username, account, hidentity, hreport⟩
  obtain ⟨-, rfl⟩ := Identity.tenant.inj hidentity
  cases hwalk.symm.trans hreport

end Master

end ControlPlane
