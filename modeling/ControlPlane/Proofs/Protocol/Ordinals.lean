/-
# What an ordinal stands for, in any catalog that loads

A registry loads although some descriptors name versions that do not exist. Building the view of
a version looks up some of these names and not others: a lower one always, an upper one only once
the lower was released, those of columns only where the table is valid. So one catalog can have
the views of some versions and lack those of others. Here it is said which names a time makes it
look up, over the lists that were read, and with that what insisting on a table comes to.
-/

import ControlPlane.Proofs.Metadata.Consistency
import ControlPlane.Proofs.Protocol.Loading
import ControlPlane.Proofs.Protocol.Sentinel

namespace ControlPlane

open Std (ExtTreeMap)

/-! ## Names that are looked up -/

/-- The lower version is known, and so is the upper one unless the lower was not released yet. -/
def Validity.IsReadableAt (versions : List ProtocolVersion) (validity : Validity)
    (atMs : UInt64) : Prop :=
  validity.since ∈ versions.map (·.token)
    ∧ ((versions.any fun version =>
          version.token == validity.since && version.releasedMs ≤ atMs) = true →
        ∀ last ∈ validity.last, last ∈ versions.map (·.token))

/-- What has to be looked up to tell whether a table is valid, and if it is, which of its columns
are. -/
def TableDescriptor.IsReadableAt (versions : List ProtocolVersion) (table : TableDescriptor)
    (atMs : UInt64) : Prop :=
  table.validity.IsReadableAt versions atMs
    ∧ (table.validity.isValidAt versions atMs = true →
        ∀ column ∈ table.columns, column.validity.IsReadableAt versions atMs)

/-- The cause is a name that no version has. -/
def Fault.IsUnknownVersion (fault : Fault) : Prop :=
  ∃ token, fault = .metadata (.unknownVersion token)

namespace ReleaseIndex

variable {versions : List ProtocolVersion} {index : ReleaseIndex}

theorem isUnknownVersion_of_resolve {token : String} {fault : Fault}
    (h : index.resolve token = .error fault) : fault.IsUnknownVersion := by
  rw [resolve] at h
  split at h
  · cases h
  · exact ⟨token, (Except.error.inj h).symm⟩

theorem isUnknownVersion_of_covers {validity : Validity} {atMs : UInt64} {fault : Fault}
    (h : index.covers validity atMs = .error fault) : fault.IsUnknownVersion := by
  rw [covers] at h
  cases hsince : index.resolve validity.since with
  | error cause =>
      rw [hsince] at h
      cases h
      exact isUnknownVersion_of_resolve hsince
  | ok since =>
      simp only [hsince, bind, Except.bind] at h
      split at h
      · cases h
      · split at h
        · cases h
        · next last hlast =>
            cases hresolve : index.resolve last with
            | error cause =>
                rw [hresolve] at h
                cases h
                exact isUnknownVersion_of_resolve hresolve
            | ok ms => rw [hresolve] at h; cases h

/-- The index can tell exactly where the names that it looks up are known. -/
theorem exists_covers_eq_ok_iff (h : ofVersions versions = .ok index) (validity : Validity)
    (atMs : UInt64) :
    (∃ covered, index.covers validity atMs = .ok covered) ↔
      validity.IsReadableAt versions atMs := by
  have hindexes := (indexes_of_ofVersions h).2
  by_cases hknown : validity.since ∈ versions.map (·.token)
  · obtain ⟨since, hsince, hfrom⟩ := exists_resolve_eq_ok hindexes hknown (· ≤ atMs)
    rw [Validity.IsReadableAt, hfrom, covers, hsince, and_iff_right hknown, decide_eq_true_eq]
    simp only [bind, Except.bind]
    by_cases hearly : atMs < since
    · have hnot : ¬ since ≤ atMs := UInt64.not_le.mpr hearly
      simp [hearly, hnot, pure, Except.pure]
    · have hle : since ≤ atMs := UInt64.not_lt.mp hearly
      rw [if_neg hearly, imp_iff_right hle]
      cases hlast : validity.last with
      | none => simp [pure, Except.pure]
      | some last =>
          simp only [Option.mem_def, Option.some.injEq, forall_eq']
          cases hresolve : index.resolve last with
          | ok ms =>
              have hmem := mem_tokens_of_resolve h hresolve
              simp [hmem, pure, Except.pure]
          | error fault =>
              have hnot : last ∉ versions.map (·.token) := by
                intro hmem
                obtain ⟨ms, hms, -⟩ := exists_resolve_eq_ok hindexes hmem (· ≤ atMs)
                rw [hresolve] at hms
                cases hms
              simp [hnot]
  · constructor
    · rintro ⟨covered, hcovered⟩
      cases hsince : index.resolve validity.since with
      | ok since => exact absurd (mem_tokens_of_resolve h hsince) hknown
      | error fault =>
          rw [covers, hsince] at hcovered
          cases hcovered
    · exact fun hreadable => absurd hreadable.1 hknown

end ReleaseIndex

namespace Catalog

variable {versions : List ProtocolVersion} {tables : List TableDescriptor} {index : ReleaseIndex}
  {atMs : UInt64} {fault : Fault}

theorem isUnknownVersion_of_columnsAt {columns : List ColumnDescriptor}
    (h : columnsAt index atMs columns = .error fault) : fault.IsUnknownVersion := by
  induction columns with
  | nil => cases h
  | cons column rest ih =>
      rw [columnsAt] at h
      cases hcovers : index.covers column.validity atMs with
      | error cause =>
          rw [hcovers] at h
          cases h
          exact ReleaseIndex.isUnknownVersion_of_covers hcovers
      | ok covered =>
          cases hrest : columnsAt index atMs rest with
          | error cause =>
              simp only [hcovers, hrest, bind, Except.bind] at h
              cases h
              exact ih hrest
          | ok ids =>
              simp only [hcovers, hrest, bind, Except.bind] at h
              cases h

theorem exists_columnsAt_eq_ok_iff (hindex : ReleaseIndex.ofVersions versions = .ok index)
    (columns : List ColumnDescriptor) :
    (∃ ids, columnsAt index atMs columns = .ok ids) ↔
      ∀ column ∈ columns, column.validity.IsReadableAt versions atMs := by
  induction columns with
  | nil => simp [columnsAt]
  | cons column rest ih =>
      rw [List.forall_mem_cons, ← ih,
        ← ReleaseIndex.exists_covers_eq_ok_iff hindex column.validity atMs, columnsAt]
      cases index.covers column.validity atMs with
      | error cause => simp [bind, Except.bind]
      | ok covered =>
          cases columnsAt index atMs rest <;> simp [bind, Except.bind, pure, Except.pure]

theorem isUnknownVersion_of_tablesAt (h : tablesAt index atMs tables = .error fault) :
    fault.IsUnknownVersion := by
  induction tables with
  | nil => cases h
  | cons table rest ih =>
      rw [tablesAt] at h
      cases hcovers : index.covers table.validity atMs with
      | error cause =>
          rw [hcovers] at h
          cases h
          exact ReleaseIndex.isUnknownVersion_of_covers hcovers
      | ok covered =>
          simp only [hcovers, bind, Except.bind] at h
          split at h
          · split at h
            · next cause hcolumns =>
                cases h
                exact isUnknownVersion_of_columnsAt hcolumns
            · split at h
              · next cause hrest =>
                  cases h
                  exact ih hrest
              · cases h
          · exact ih h

/-- A list of tables can be gone through exactly where the names that are looked up are known. -/
theorem exists_tablesAt_eq_ok_iff (hindex : ReleaseIndex.ofVersions versions = .ok index)
    (tables : List TableDescriptor) :
    (∃ entries, tablesAt index atMs tables = .ok entries) ↔
      ∀ table ∈ tables, table.IsReadableAt versions atMs := by
  induction tables with
  | nil => simp [tablesAt]
  | cons table rest ih =>
      rw [List.forall_mem_cons, ← ih, TableDescriptor.IsReadableAt,
        ← exists_columnsAt_eq_ok_iff hindex table.columns,
        ← ReleaseIndex.exists_covers_eq_ok_iff hindex table.validity atMs, tablesAt]
      cases hcovers : index.covers table.validity atMs with
      | error cause => simp [bind, Except.bind]
      | ok covered =>
          rw [← ReleaseIndex.eq_isValidAt_of_covers hindex hcovers]
          simp only [bind, Except.bind]
          cases covered with
          | false => simp
          | true =>
              cases columnsAt index atMs table.columns <;> cases tablesAt index atMs rest <;>
                simp [pure, Except.pure]

/-- A version whose view can be built has the ids of the tables that are valid at its release; one
whose view cannot be built is told which name is missing. -/
theorem buildView_cases {catalog : Catalog}
    (hindex : ReleaseIndex.ofVersions versions = .ok catalog.index) (version : ProtocolVersion) :
    ((∀ table ∈ catalog.tables, table.IsReadableAt versions version.releasedMs)
        ∧ ∃ view, catalog.buildView version = .ok view
          ∧ view.tables.ids =
            (visibleTables versions version.releasedMs catalog.tables).map (·.id))
    ∨ ((∃ table ∈ catalog.tables, ¬ table.IsReadableAt versions version.releasedMs)
        ∧ ∃ fault, catalog.buildView version = .error fault ∧ fault.IsUnknownVersion) := by
  have hreadable :
      (∃ entries, tablesAt catalog.index version.releasedMs catalog.tables = .ok entries) ↔
        ∀ table ∈ catalog.tables, table.IsReadableAt versions version.releasedMs :=
    exists_tablesAt_eq_ok_iff hindex catalog.tables
  cases hentries : tablesAt catalog.index version.releasedMs catalog.tables with
  | ok entries =>
      refine .inl ⟨hreadable.mp ⟨entries, hentries⟩, _, by rw [buildView, hentries]; rfl, ?_⟩
      exact ids_of_tablesAt hindex hentries
  | error fault =>
      refine .inr ⟨?_, fault, by rw [buildView, hentries]; rfl, ?_⟩
      · by_contra hnone
        obtain ⟨entries, hok⟩ := hreadable.mpr fun table htable =>
          not_not.mp fun hnot => hnone ⟨table, htable, hnot⟩
        cases hentries.symm.trans hok
      · exact isUnknownVersion_of_tablesAt hentries

end Catalog

/-! ## Registries that do not load -/

/-- If there is a failure, the metadata is at fault. -/
def BlamesMetadata {α : Type} (result : Except Fault α) : Prop :=
  ∀ fault, result = .error fault → ∃ cause, fault = .metadata cause

theorem ReleaseIndex.blamesMetadata_ofVersions (versions : List ProtocolVersion) :
    BlamesMetadata (ofVersions versions) := by
  induction versions using List.reverseRecOn with
  | nil =>
      intro fault h
      cases h
  | append_singleton versions version ih =>
      rw [ofVersions_concat]
      intro fault h
      split at h
      · split at h
        · cases h
          exact ⟨_, rfl⟩
        · cases h
      · next cause hcause =>
          cases h
          exact ih _ hcause

theorem Catalog.blamesMetadata_checkTables (seen : List Int32) (tables : List TableDescriptor) :
    BlamesMetadata (checkTables seen tables) := by
  induction tables generalizing seen with
  | nil =>
      intro fault h
      cases h
  | cons table rest ih =>
      rw [checkTables]
      intro fault h
      split at h
      · cases h
        exact ⟨_, rfl⟩
      · split at h
        · cases h
          exact ⟨_, rfl⟩
        · exact ih _ fault h

/-- A registry whose own failures are the metadata's does not load only for the metadata's sake. -/
theorem Catalog.blamesMetadata_load {registry : Registry}
    (hversions : BlamesMetadata registry.versions) (htables : BlamesMetadata registry.tables) :
    BlamesMetadata (load registry) := by
  intro fault h
  unfold load at h
  cases hread : registry.versions with
  | error cause =>
      rw [hread] at h
      cases h
      exact hversions _ hread
  | ok versions =>
      cases hindex : ReleaseIndex.ofVersions versions with
      | error cause =>
          simp only [hread, hindex, bind, Except.bind] at h
          cases h
          exact ReleaseIndex.blamesMetadata_ofVersions versions _ hindex
      | ok index =>
          cases hlisted : registry.tables with
          | error cause =>
              simp only [hread, hindex, hlisted, bind, Except.bind] at h
              cases h
              exact htables _ hlisted
          | ok tables =>
              simp only [hread, hindex, hlisted, bind, Except.bind, assemble] at h
              split at h
              · next cause hcause =>
                  cases h
                  exact blamesMetadata_checkTables [] tables _ hcause
              · cases h

theorem Store.blamesMetadata_load (store : Store) :
    BlamesMetadata (Catalog.load store.registry) := by
  have hread {α : Type} (look : Snapshot → α) : BlamesMetadata (store.read.map look) := by
    intro fault h
    unfold read at h
    split at h
    · cases h
    · cases h
      exact ⟨.storeUnavailable, rfl⟩
  exact Catalog.blamesMetadata_load (hread (·.versions)) (hread (·.tables))

/-! ## Insisting on a table -/

/-- The table at an ordinal, as a version released at some time counts the tables. -/
def tableAt? (versions : List ProtocolVersion) (atMs : UInt64) (tables : List TableDescriptor)
    (ordinal : Int32) : Option TableDescriptor :=
  if 0 ≤ ordinal.toInt then (visibleTables versions atMs tables)[ordinal.toInt.toNat]? else none

theorem idAt?_visibleTables (versions : List ProtocolVersion) (atMs : UInt64)
    (tables : List TableDescriptor) (ordinal : Int32) :
    idAt? (some ((visibleTables versions atMs tables).map (·.id))) ordinal =
      (tableAt? versions atMs tables ordinal).map (·.id) := by
  rw [idAt?, tableAt?]
  split
  · exact List.getElem?_map
  · rfl

/-- What insisting on the table at an ordinal comes to, by the versions and tables that were
read. -/
structure InsistsOnTable (versions : List ProtocolVersion) (tables : List TableDescriptor)
    (token : String) (ordinal : Int32) (answer : Except Fault Int32) : Prop where
  of_unknown : token ∉ versions.map (·.token) →
    answer = .error (.protocolMismatch token .table ordinal.toInt)
  of_unreadable : ∀ version ∈ versions, version.token = token →
    (∃ table ∈ tables, ¬ table.IsReadableAt versions version.releasedMs) →
      ∃ missing, answer = .error (.metadata (.unknownVersion missing))
  of_counted : ∀ version ∈ versions, version.token = token →
    (∀ table ∈ tables, table.IsReadableAt versions version.releasedMs) →
      ∀ table, tableAt? versions version.releasedMs tables ordinal = some table →
        table.id ≠ unmapped → answer = .ok table.id
  of_uncounted : ∀ version ∈ versions, version.token = token →
    (∀ table ∈ tables, table.IsReadableAt versions version.releasedMs) →
      (∀ table, tableAt? versions version.releasedMs tables ordinal = some table →
        table.id = unmapped) →
      answer = .error (.protocolMismatch token .table ordinal.toInt)

section

variable {registry : Registry} {catalog : Catalog} {versions : List ProtocolVersion}
  {tables : List TableDescriptor} {token : String}

/-- Insisting on a table reads the view, if there is one, and has an answer of its own only for a
version that nobody knows. -/
theorem VersionQuery.requireTable_on (token : String) (ordinal : Int32)
    (reading : Except Fault Catalog) :
    (requireTable token ordinal).on reading =
      match reading >>= (·.view token) with
      | .ok view =>
          if view.tables.toCanonical ordinal = unmapped then
            .error (.protocolMismatch token .table ordinal.toInt)
          else .ok (view.tables.toCanonical ordinal)
      | .error (.unknownProtocolVersion _) => .error (.protocolMismatch token .table ordinal.toInt)
      | .error fault => .error fault := by
  have hversion : (requireTable token ordinal).version = token := rfl
  rw [on, hversion]
  simp only [requireTable, insist, tableToCanonical, readOff]
  cases reading >>= (·.view token) with
  | ok view => rfl
  | error fault => cases fault <;> rfl

theorem insistsOnTable_of_load (hload : Catalog.load registry = .ok catalog)
    (hversions : registry.versions = .ok versions) (htables : registry.tables = .ok tables)
    (token : String) (ordinal : Int32) :
    InsistsOnTable versions tables token ordinal
      ((VersionQuery.requireTable token ordinal).on (.ok catalog)) := by
  have hindex := Catalog.ofVersions_of_load hload hversions
  have hlisted := Catalog.versions_of_load hload hversions
  have htables' : catalog.tables = tables :=
    (Catalog.holds_of_load hload hversions htables).tables_eq
  have hnodup := (ReleaseIndex.indexes_of_ofVersions hindex).1
  have hview {version : ProtocolVersion} (hmem : version ∈ versions)
      (htoken : version.token = token) : catalog.view token = catalog.buildView version := by
    rw [Catalog.view, hlisted, ← htoken, find?_eq_some_of_mem hnodup hmem]
  -- where the names are known there is a view, and it has the id of the table at the ordinal
  have hread {version : ProtocolVersion} (hmem : version ∈ versions)
      (htoken : version.token = token)
      (hreadable : ∀ table ∈ tables, table.IsReadableAt versions version.releasedMs) :
      ∃ view, catalog.view token = .ok view ∧ view.tables.toCanonical ordinal =
        ((tableAt? versions version.releasedMs tables ordinal).map (·.id)).getD unmapped := by
    rcases Catalog.buildView_cases hindex version with ⟨-, view, hbuilt, hids⟩ | ⟨hnot, -⟩
    · refine ⟨view, (hview hmem htoken).trans hbuilt, ?_⟩
      rw [Enumeration.toCanonical_eq, hids, htables', idAt?_visibleTables]
    · rw [htables'] at hnot
      obtain ⟨table, htable, hunreadable⟩ := hnot
      exact absurd (hreadable table htable) hunreadable
  rw [VersionQuery.requireTable_on]
  constructor
  · intro hunknown
    have hnone : versions.find? (·.token == token) = none := by
      rw [List.find?_eq_none]
      intro version hmem heq
      exact hunknown (List.mem_map.mpr ⟨version, hmem, eq_of_beq heq⟩)
    have hview : catalog.view token = .error (.unknownProtocolVersion token) := by
      rw [Catalog.view, hlisted, hnone]
    simp only [bind, Except.bind, hview]
  · intro version hmem htoken hunreadable
    rcases Catalog.buildView_cases hindex version with ⟨hreadable, -⟩ | ⟨-, fault, hbuilt, hcause⟩
    · rw [htables'] at hreadable
      obtain ⟨table, htable, hnot⟩ := hunreadable
      exact absurd (hreadable table htable) hnot
    · obtain ⟨missing, rfl⟩ := hcause
      refine ⟨missing, ?_⟩
      simp only [bind, Except.bind, (hview hmem htoken).trans hbuilt]
  · intro version hmem htoken hreadable table htable hmapped
    obtain ⟨view, hok, hid⟩ := hread hmem htoken hreadable
    rw [htable] at hid
    simp only [bind, Except.bind, hok, hid, Option.map_some, Option.getD_some, if_neg hmapped]
  · intro version hmem htoken hreadable huncounted
    obtain ⟨view, hok, hid⟩ := hread hmem htoken hreadable
    have hunmapped : view.tables.toCanonical ordinal = unmapped := by
      rw [hid]
      cases htable : tableAt? versions version.releasedMs tables ordinal with
      | none => rfl
      | some table => exact huncounted table htable
    simp only [bind, Except.bind, hok, hunmapped, if_true]

theorem mem_of_tableAt? {atMs : UInt64} {ordinal : Int32} {table : TableDescriptor}
    (h : tableAt? versions atMs tables ordinal = some table) : table ∈ tables := by
  rw [tableAt?] at h
  split at h
  · exact (List.mem_filter.mp (List.mem_of_getElem? h)).1
  · cases h

/-- Insisting refuses the ordinal, reports a name that no version has, or gives the id of the table
at the ordinal. -/
theorem InsistsOnTable.cases {answer : Except Fault Int32} {ordinal : Int32}
    (h : InsistsOnTable versions tables token ordinal answer) :
    answer = .error (.protocolMismatch token .table ordinal.toInt)
      ∨ (∃ missing, answer = .error (.metadata (.unknownVersion missing)))
      ∨ ∃ version ∈ versions, version.token = token ∧ ∃ table,
          tableAt? versions version.releasedMs tables ordinal = some table
            ∧ answer = .ok table.id := by
  by_cases hknown : token ∈ versions.map (·.token)
  · obtain ⟨version, hmem, htoken⟩ := List.mem_map.mp hknown
    by_cases hreadable : ∀ table ∈ tables, table.IsReadableAt versions version.releasedMs
    · cases htable : tableAt? versions version.releasedMs tables ordinal with
      | none =>
          left
          apply h.of_uncounted version hmem htoken hreadable
          rw [htable]
          intro table hnone
          cases hnone
      | some table =>
          by_cases hmapped : table.id = unmapped
          · left
            apply h.of_uncounted version hmem htoken hreadable
            rw [htable]
            intro other hother
            rwa [← Option.some.inj hother]
          · exact .inr (.inr ⟨version, hmem, htoken, table, htable,
              h.of_counted version hmem htoken hreadable table htable hmapped⟩)
    · simp only [not_forall] at hreadable
      obtain ⟨table, htable, hnot⟩ := hreadable
      exact .inr (.inl (h.of_unreadable version hmem htoken ⟨table, htable, hnot⟩))
  · exact .inl (h.of_unknown hknown)

end

end ControlPlane
