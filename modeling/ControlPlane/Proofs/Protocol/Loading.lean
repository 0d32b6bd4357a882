/-
# Registries that load

A registry loads if it can be read, if its tokens and its table ids are distinct, and if the
column ids are within each table. Nothing else is asked of it: whether a descriptor names a
version that exists is noticed only by a view that has to know. `load_eq_ok_iff` says this in
both directions.

A view that is built has looked up what it needs, so it is known to hold the tables that are valid
at its release even where other descriptors name unknown versions.
-/

import ControlPlane.Proofs.Protocol.Views

namespace ControlPlane

open Std (ExtTreeMap)

/-- A table that names no unknown version, neither itself nor in a column. -/
def TableDescriptor.IsKnown (versions : List ProtocolVersion) (table : TableDescriptor) : Prop :=
  table.validity.IsKnown versions ∧ ∀ column ∈ table.columns, column.validity.IsKnown versions

namespace ReleaseIndex

variable {versions : List ProtocolVersion} {index : ReleaseIndex} {token : String}

/-- The index knows the tokens of the versions and no other. -/
theorem mem_tokens_of_releasedMs? (h : ofVersions versions = .ok index)
    (hknown : (index.releasedMs? token).isSome = true) : token ∈ versions.map (·.token) := by
  induction versions using List.reverseRecOn generalizing index with
  | nil =>
      cases h
      simp [releasedMs?] at hknown
  | append_singleton versions version ih =>
      rw [ofVersions_concat] at h
      split at h
      · next before hbefore =>
        split at h
        · cases h
        · cases h
          rw [List.map_append, List.mem_append]
          rw [releasedMs?, ExtTreeMap.getElem?_insert] at hknown
          split at hknown
          · next heq =>
            rw [← Std.LawfulEqOrd.eq_of_compare heq]
            exact .inr List.mem_cons_self
          · exact .inl (ih hbefore hknown)
      · cases h

theorem mem_tokens_of_resolve (h : ofVersions versions = .ok index) {ms : UInt64}
    (hresolve : index.resolve token = .ok ms) : token ∈ versions.map (·.token) := by
  apply mem_tokens_of_releasedMs? h
  rw [resolve] at hresolve
  split at hresolve
  · next hreleased => rw [hreleased]; rfl
  · cases hresolve

/-- Where the index can tell at all, it tells what the versions say. -/
theorem eq_isValidAt_of_covers (h : ofVersions versions = .ok index) {validity : Validity}
    {atMs : UInt64} {covered : Bool} (hcovers : index.covers validity atMs = .ok covered) :
    covered = validity.isValidAt versions atMs := by
  have hindexes := (indexes_of_ofVersions h).2
  cases hsince : index.resolve validity.since with
  | error fault =>
      rw [covers, hsince] at hcovers
      cases hcovers
  | ok since =>
      have hknown := mem_tokens_of_resolve h hsince
      by_cases hearly : atMs < since
      · -- the upper token, which may be unknown, is not asked for
        have hnot : (validity.isValidAt versions atMs) = false := by
          obtain ⟨ms, hms, hfrom⟩ := exists_resolve_eq_ok hindexes hknown (· ≤ atMs)
          obtain rfl : since = ms := Except.ok.inj (hsince.symm.trans hms)
          rw [Validity.isValidAt, hfrom, decide_eq_false (UInt64.not_le.mpr hearly),
            Bool.false_and]
        rw [covers, hsince] at hcovers
        simp only [bind, Except.bind, if_pos hearly] at hcovers
        rw [hnot, ← Except.ok.inj hcovers]
      · have hlast : ∀ last ∈ validity.last, last ∈ versions.map (·.token) := by
          intro last hlast
          rw [Option.mem_def] at hlast
          rw [covers, hsince, hlast] at hcovers
          simp only [bind, Except.bind, if_neg hearly] at hcovers
          cases hresolve : index.resolve last with
          | error fault =>
              rw [hresolve] at hcovers
              cases hcovers
          | ok ms => exact mem_tokens_of_resolve h hresolve
        rw [covers_eq hindexes ⟨hknown, hlast⟩] at hcovers
        exact (Except.ok.inj hcovers).symm

end ReleaseIndex

namespace Catalog

variable {versions : List ProtocolVersion} {tables : List TableDescriptor} {index : ReleaseIndex}

theorem checkTables_eq_ok {seen : List Int32} (hunseen : ∀ table ∈ tables, table.id ∉ seen)
    (hnodup : (tables.map (·.id)).Nodup)
    (hcolumns : ∀ table ∈ tables, (table.columns.map (·.id)).Nodup) :
    checkTables seen tables = .ok () := by
  induction tables generalizing seen with
  | nil => rfl
  | cons table rest ih =>
      obtain ⟨hfirst, hunseen⟩ := List.forall_mem_cons.mp hunseen
      obtain ⟨hown, hcolumns⟩ := List.forall_mem_cons.mp hcolumns
      obtain ⟨hnotMem, hnodup⟩ := List.nodup_cons.mp hnodup
      rw [checkTables, if_neg hfirst, (firstRepeat?_eq_none_iff _).mpr hown]
      apply ih _ hnodup hcolumns
      intro other hother
      rw [List.mem_cons, not_or]
      refine ⟨?_, hunseen other hother⟩
      intro heq
      exact hnotMem (List.mem_map.mpr ⟨other, hother, heq⟩)

/-- What is read of a registry that loads, and what becomes of it. -/
theorem load_eq_ok_iff {registry : Registry} {catalog : Catalog} :
    load registry = .ok catalog ↔
      ∃ versions index tables, registry.versions = .ok versions
        ∧ ReleaseIndex.ofVersions versions = .ok index ∧ registry.tables = .ok tables
        ∧ (tables.map (·.id)).Nodup
        ∧ (∀ table ∈ tables, (table.columns.map (·.id)).Nodup)
        ∧ catalog = {
            versions := ExtTreeMap.ofList (versions.map fun version => (version.token, version))
            index
            tables } := by
  constructor
  · intro hload
    cases hversions : registry.versions with
    | error fault => rw [load, hversions] at hload; cases hload
    | ok versions =>
        cases hindex : ReleaseIndex.ofVersions versions with
        | error fault =>
            simp only [load, hversions, hindex, bind, Except.bind] at hload
            cases hload
        | ok index =>
            cases htables : registry.tables with
            | error fault =>
                simp only [load, hversions, hindex, htables, bind, Except.bind] at hload
                cases hload
            | ok tables =>
                simp only [load, hversions, hindex, htables, bind, Except.bind, assemble] at hload
                split at hload
                · cases hload
                · next hchecked =>
                  obtain ⟨-, hnodup, hcolumns⟩ := nodup_of_checkTables hchecked
                  exact ⟨versions, index, tables, rfl, hindex, rfl, hnodup, hcolumns,
                    (Except.ok.inj hload).symm⟩
  · intro h
    obtain ⟨versions, index, tables, hversions, hindex, htables, hnodup, hcolumns, rfl⟩ := h
    have hchecked : checkTables [] tables = .ok () :=
      checkTables_eq_ok (fun _ _ => List.not_mem_nil) hnodup hcolumns
    simp only [load, hversions, hindex, htables, bind, Except.bind, assemble, hchecked]
    rfl

theorem ofVersions_of_load {registry : Registry} {catalog : Catalog}
    (hload : load registry = .ok catalog) (hversions : registry.versions = .ok versions) :
    ReleaseIndex.ofVersions versions = .ok catalog.index := by
  obtain ⟨_, index, _, hread, hindex, -, -, -, rfl⟩ := load_eq_ok_iff.mp hload
  cases hread.symm.trans hversions
  exact hindex

theorem versions_of_load {registry : Registry} {catalog : Catalog}
    (hload : load registry = .ok catalog) (hversions : registry.versions = .ok versions)
    (token : String) :
    catalog.versions[token]? = versions.find? fun version => version.token == token := by
  obtain ⟨_, index, _, hread, hindex, -, -, -, rfl⟩ := load_eq_ok_iff.mp hload
  cases hread.symm.trans hversions
  obtain ⟨hnodup, -⟩ := ReleaseIndex.indexes_of_ofVersions hindex
  have hfind := getElem?_ofList_map_eq_find? ProtocolVersion.token id hnodup token
  rwa [Option.map_id] at hfind

/-- A list of tables that a view could be built from has the ids of the valid ones. -/
theorem ids_of_tablesAt (h : ReleaseIndex.ofVersions versions = .ok index) {atMs : UInt64}
    {entries : List (Int32 × Enumeration)} (hentries : tablesAt index atMs tables = .ok entries) :
    entries.map (·.1) = (visibleTables versions atMs tables).map (·.id) := by
  induction tables generalizing entries with
  | nil =>
      cases hentries
      rfl
  | cons table rest ih =>
      rw [tablesAt] at hentries
      cases hcovers : index.covers table.validity atMs with
      | error fault => rw [hcovers] at hentries; cases hentries
      | ok covered =>
          have hvalid := ReleaseIndex.eq_isValidAt_of_covers h hcovers
          simp only [hcovers, bind, Except.bind] at hentries
          rw [visibleTables, List.filter_cons, ← hvalid]
          cases covered with
          | false => exact ih hentries
          | true =>
              rw [if_pos rfl] at hentries ⊢
              split at hentries
              · cases hentries
              · split at hentries
                · cases hentries
                · next later hlater =>
                  cases hentries
                  rw [List.map_cons, List.map_cons, ih hlater]
                  rfl

end Catalog

end ControlPlane
