/-
# What a version sees

A registry that loads has distinct tokens, distinct table ids and distinct column ids in each
table. If its descriptors name no unknown versions either, every version has a view: the
tables valid at its release in their order, and for each of them its valid columns. Because ids
are distinct, ordinals and ids of an enumeration translate into one another.

Validity is stated here over the list of versions. That the release index, which is what a
catalog asks, gives the same answers is shown once, in `covers_eq`.
-/

import ControlPlane.Protocol.Catalog
import Mathlib.Data.List.Induction
import Mathlib.Data.List.Nodup

namespace ControlPlane

open Std (ExtTreeMap)

/-! ## Enumerations -/

namespace Enumeration

/-- Ordinals and ids of an enumeration determine each other, and nothing else is mapped. -/
structure Inverts (e : Enumeration) : Prop where
  toCanonical_eq : ∀ (o : Nat) (h : o < e.ids.length) (ordinal : Int32),
    ordinal.toInt = o → e.toCanonical ordinal = e.ids[o]
  toOrdinal_eq : ∀ (o : Nat) (h : o < e.ids.length), (e.toOrdinal e.ids[o]).toInt = o
  toCanonical_eq_unmapped : ∀ ordinal : Int32,
    ordinal.toInt < 0 ∨ (e.ids.length : Int) ≤ ordinal.toInt → e.toCanonical ordinal = unmapped
  toOrdinal_eq_unmapped : ∀ id, id ∉ e.ids → e.toOrdinal id = unmapped

variable {e : Enumeration}

theorem toOrdinal_getElem (hnodup : e.ids.Nodup) {o : Nat} (h : o < e.ids.length) :
    e.toOrdinal e.ids[o] = Int32.ofNat o := by
  have hfound : (e.ids.zipIdx.reverse.find? fun entry => entry.1 == e.ids[o]) =
      some (e.ids[o], o) := by
    have hmem : (e.ids[o], o) ∈ e.ids.zipIdx.reverse := by
      rw [List.mem_reverse, List.mem_zipIdx_iff_getElem?]
      exact List.getElem?_eq_getElem h
    -- something is found, since the id stands at `o`, and distinct ids stand nowhere else
    cases hfind : e.ids.zipIdx.reverse.find? fun entry => entry.1 == e.ids[o] with
    | none => exact absurd (beq_self_eq_true e.ids[o]) (List.find?_eq_none.mp hfind _ hmem)
    | some entry =>
        have hsame := List.find?_some hfind
        have hentry := List.mem_of_find?_eq_some hfind
        rw [List.mem_reverse, List.mem_zipIdx_iff_getElem?] at hentry
        obtain ⟨hlt, hid⟩ := List.getElem?_eq_some_iff.mp hentry
        have hid' : entry.1 = e.ids[o] := eq_of_beq hsame
        have hposition : entry.2 = o := hnodup.getElem_inj_iff.mp (hid.trans hid')
        rw [← hid', ← hposition]
  rw [toOrdinal, hfound]

theorem toOrdinal_of_not_mem {id : Int32} (h : id ∉ e.ids) : e.toOrdinal id = unmapped := by
  have hnone : (e.ids.zipIdx.reverse.find? fun entry => entry.1 == id) = none := by
    apply List.find?_eq_none.mpr
    intro entry hentry hsame
    obtain rfl : entry.1 = id := eq_of_beq hsame
    rw [List.mem_reverse, List.mem_zipIdx_iff_getElem?] at hentry
    exact h (List.mem_of_getElem? hentry)
  rw [toOrdinal, hnone]

theorem inverts_of_nodup (hnodup : e.ids.Nodup) (hlength : e.ids.length ≤ Nat.pow 2 31) :
    e.Inverts where
  toCanonical_eq o h ordinal hordinal := by
    rw [toCanonical, hordinal, if_pos (Int.natCast_nonneg o), Int.toNat_natCast,
      List.getElem?_eq_getElem h]
    rfl
  toOrdinal_eq o h := by
    rw [toOrdinal_getElem hnodup h]
    exact Int32.toInt_ofNat_of_lt (Nat.lt_of_lt_of_le h hlength)
  toCanonical_eq_unmapped ordinal h := by
    rw [toCanonical]
    split
    · next hnonneg =>
      rw [List.getElem?_eq_none (by omega)]
      rfl
    · rfl
  toOrdinal_eq_unmapped id h := toOrdinal_of_not_mem h

end Enumeration

/-! ## Validity -/

/-- Whether a descriptor is valid at a time, by the release times of the versions it names. -/
def Validity.isValidAt (versions : List ProtocolVersion) (validity : Validity) (atMs : UInt64) :
    Bool :=
  (versions.any fun version => version.token == validity.since && version.releasedMs ≤ atMs) &&
    validity.last.all fun last =>
      versions.any fun version => version.token == last && atMs < version.releasedMs

/-- A descriptor that names no unknown version. -/
def Validity.IsKnown (versions : List ProtocolVersion) (validity : Validity) : Prop :=
  validity.since ∈ versions.map (·.token) ∧
    ∀ last ∈ validity.last, last ∈ versions.map (·.token)

instance (versions : List ProtocolVersion) (validity : Validity) :
    Decidable (validity.IsKnown versions) :=
  inferInstanceAs (Decidable (_ ∧ _))

namespace ReleaseIndex

variable {versions : List ProtocolVersion} {index : ReleaseIndex}

/-- The index has the release time of each version. -/
def Indexes (index : ReleaseIndex) (versions : List ProtocolVersion) : Prop :=
  ∀ version ∈ versions, index.releasedMs? version.token = some version.releasedMs

theorem ofVersions_concat (versions : List ProtocolVersion) (version : ProtocolVersion) :
    ofVersions (versions ++ [version]) =
      match ofVersions versions with
      | .ok before =>
          if before.released.contains version.token then
            .error (.metadata (.duplicateVersion version.token))
          else .ok { released := before.released.insert version.token version.releasedMs }
      | .error fault => .error fault := by
  rw [ofVersions, List.foldlM_append, ← ofVersions]
  cases ofVersions versions with
  | error fault => rfl
  | ok before =>
      simp only [List.foldlM_cons, List.foldlM_nil, bind_pure]
      rfl

theorem indexes_of_ofVersions (h : ofVersions versions = .ok index) :
    (versions.map (·.token)).Nodup ∧ index.Indexes versions := by
  induction versions using List.reverseRecOn generalizing index with
  | nil => exact ⟨List.nodup_nil, fun _ h => (List.not_mem_nil h).elim⟩
  | append_singleton versions version ih =>
      rw [ofVersions_concat] at h
      split at h
      · next before hbefore =>
        obtain ⟨hnodup, hindexes⟩ := ih hbefore
        split at h
        · cases h
        · next hfresh =>
          cases h
          rw [ExtTreeMap.contains_iff_mem] at hfresh
          have hunused (other : ProtocolVersion) (hother : other ∈ versions) :
              version.token ≠ other.token := by
            intro heq
            have hreleased := hindexes other hother
            rw [releasedMs?, ← heq, ExtTreeMap.getElem?_eq_none hfresh] at hreleased
            cases hreleased
          constructor
          · rw [List.map_append, List.map_singleton, List.nodup_append]
            refine ⟨hnodup, List.nodup_singleton _, ?_⟩
            intro token htoken token' htoken' heq
            obtain ⟨other, hother, rfl⟩ := List.mem_map.mp htoken
            exact hunused other hother ((List.mem_singleton.mp htoken').symm.trans heq.symm)
          · intro other hother
            simp only [releasedMs?, ExtTreeMap.getElem?_insert,
              Std.LawfulEqOrd.compare_eq_iff_eq]
            rcases List.mem_append.mp hother with hother | hother
            · rw [if_neg (hunused other hother)]
              exact hindexes other hother
            · obtain rfl := List.mem_singleton.mp hother
              rw [if_pos rfl]
      · cases h

/-- A known token has one release time, whether it is asked of the index or of the list. -/
theorem exists_resolve_eq_ok (hindexes : index.Indexes versions) {token : String}
    (hknown : token ∈ versions.map (·.token)) (p : UInt64 → Bool) :
    ∃ ms, index.resolve token = .ok ms ∧
      (versions.any fun version => version.token == token && p version.releasedMs) = p ms := by
  obtain ⟨version, hversion, rfl⟩ := List.mem_map.mp hknown
  refine ⟨version.releasedMs, ?_, ?_⟩
  · rw [resolve, hindexes version hversion]
  · rw [Bool.eq_iff_iff, List.any_eq_true]
    constructor
    · intro h
      obtain ⟨other, hother, h⟩ := h
      rw [Bool.and_eq_true, beq_iff_eq] at h
      have hreleased := hindexes other hother
      rw [h.1, hindexes version hversion] at hreleased
      rw [Option.some.inj hreleased]
      exact h.2
    · intro h
      exact ⟨version, hversion, by rw [beq_self_eq_true, h]; rfl⟩

theorem covers_eq (hindexes : index.Indexes versions) {validity : Validity}
    (hknown : validity.IsKnown versions) (atMs : UInt64) :
    index.covers validity atMs = .ok (validity.isValidAt versions atMs) := by
  obtain ⟨since, hsince, hfrom⟩ := exists_resolve_eq_ok hindexes hknown.1 (· ≤ atMs)
  rw [covers, hsince, Validity.isValidAt, hfrom]
  simp only [bind, Except.bind]
  by_cases hearly : atMs < since
  · have hnot : ¬ since ≤ atMs := UInt64.not_le.mpr hearly
    rw [if_pos hearly, decide_eq_false hnot, Bool.false_and]
    rfl
  · have hle : since ≤ atMs := UInt64.not_lt.mp hearly
    simp only [hearly, hle, if_false, decide_true, Bool.true_and]
    cases hlast : validity.last with
    | none => rfl
    | some last =>
        obtain ⟨ms, hresolve, hbefore⟩ :=
          exists_resolve_eq_ok hindexes (hknown.2 last hlast) (atMs < ·)
        simp only [hresolve, Option.all_some, hbefore]
        rfl

end ReleaseIndex

/-! ## Catalogs -/

/-- The tables that are valid at a time, in their order. -/
def visibleTables (versions : List ProtocolVersion) (atMs : UInt64)
    (tables : List TableDescriptor) : List TableDescriptor :=
  tables.filter fun table => table.validity.isValidAt versions atMs

/-- The ids of the columns that are valid at a time, in their order. -/
def visibleIds (versions : List ProtocolVersion) (atMs : UInt64)
    (columns : List ColumnDescriptor) : List Int32 :=
  (columns.filter fun column => column.validity.isValidAt versions atMs).map (·.id)

namespace Catalog

variable {versions : List ProtocolVersion} {tables : List TableDescriptor} {catalog : Catalog}

theorem nodup_of_checkTables {seen : List Int32} (h : checkTables seen tables = .ok ()) :
    (∀ table ∈ tables, table.id ∉ seen) ∧ (tables.map (·.id)).Nodup ∧
      ∀ table ∈ tables, (table.columns.map (·.id)).Nodup := by
  induction tables generalizing seen with
  | nil => simp
  | cons table rest ih =>
      rw [checkTables] at h
      split at h
      · cases h
      · next hunseen =>
        split at h
        · cases h
        · next hcolumns =>
          obtain ⟨hfresh, hnodup, hrest⟩ := ih h
          simp only [List.mem_cons, not_or] at hfresh
          refine ⟨?_, ?_, ?_⟩
          · exact List.forall_mem_cons.mpr ⟨hunseen, fun other hother => (hfresh other hother).2⟩
          · refine List.nodup_cons.mpr ⟨?_, hnodup⟩
            intro hmem
            obtain ⟨other, hother, heq⟩ := List.mem_map.mp hmem
            exact (hfresh other hother).1 heq
          · refine List.forall_mem_cons.mpr ⟨?_, hrest⟩
            exact (firstRepeat?_eq_none_iff _).mp hcolumns

/-- A catalog of versions and tables that have passed all checks. -/
structure Holds (catalog : Catalog) (versions : List ProtocolVersion)
    (tables : List TableDescriptor) : Prop where
  find_version : ∀ version ∈ versions, catalog.versions[version.token]? = some version
  indexes : catalog.index.Indexes versions
  tables_eq : catalog.tables = tables
  nodup_tables : (tables.map (·.id)).Nodup
  nodup_columns : ∀ table ∈ tables, (table.columns.map (·.id)).Nodup

theorem holds_of_load {registry : Registry} (hload : load registry = .ok catalog)
    (hversions : registry.versions = .ok versions) (htables : registry.tables = .ok tables) :
    catalog.Holds versions tables := by
  rw [load, hversions, htables] at hload
  simp only [bind, Except.bind, assemble] at hload
  split at hload
  · cases hload
  · next index hindex =>
    obtain ⟨hnodup, hindexes⟩ := ReleaseIndex.indexes_of_ofVersions hindex
    split at hload
    · cases hload
    · next hchecked =>
      obtain ⟨-, htables, hcolumns⟩ := nodup_of_checkTables hchecked
      cases hload
      exact ⟨fun _ => getElem?_ofList_map ProtocolVersion.token id hnodup, hindexes, rfl, htables,
        hcolumns⟩

section

variable {index : ReleaseIndex} (hindexes : index.Indexes versions) (atMs : UInt64)
include hindexes

theorem columnsAt_eq {columns : List ColumnDescriptor}
    (hknown : ∀ column ∈ columns, column.validity.IsKnown versions) :
    columnsAt index atMs columns = .ok (visibleIds versions atMs columns) := by
  induction columns with
  | nil => rfl
  | cons column rest ih =>
      obtain ⟨hcolumn, hrest⟩ := List.forall_mem_cons.mp hknown
      rw [columnsAt, ReleaseIndex.covers_eq hindexes hcolumn, ih hrest]
      simp only [bind, Except.bind, visibleIds, List.filter_cons]
      cases column.validity.isValidAt versions atMs <;> rfl

theorem tablesAt_eq {tables : List TableDescriptor}
    (hknown : ∀ table ∈ tables, table.validity.IsKnown versions ∧
      ∀ column ∈ table.columns, column.validity.IsKnown versions) :
    tablesAt index atMs tables =
      .ok ((visibleTables versions atMs tables).map fun table =>
        (table.id, ⟨visibleIds versions atMs table.columns⟩)) := by
  induction tables with
  | nil => rfl
  | cons table rest ih =>
      obtain ⟨⟨htable, hcolumns⟩, hrest⟩ := List.forall_mem_cons.mp hknown
      rw [tablesAt, ReleaseIndex.covers_eq hindexes htable]
      simp only [bind, Except.bind, columnsAt_eq hindexes atMs hcolumns, ih hrest,
        visibleTables, List.filter_cons]
      cases table.validity.isValidAt versions atMs <;> rfl

end

/-- Of versions and tables that have passed all checks and name no unknown version, every version
has its view. -/
theorem Holds.view_eq (h : catalog.Holds versions tables)
    (hknown : ∀ table ∈ tables, table.validity.IsKnown versions ∧
      ∀ column ∈ table.columns, column.validity.IsKnown versions)
    {version : ProtocolVersion} (hversion : version ∈ versions) :
    catalog.view version.token = .ok {
      version
      tables := ⟨(visibleTables versions version.releasedMs tables).map (·.id)⟩
      columns := ExtTreeMap.ofList
        ((visibleTables versions version.releasedMs tables).map fun table =>
          (table.id,
            (⟨visibleIds versions version.releasedMs table.columns⟩ : Enumeration))) } := by
  rw [view, h.find_version version hversion]
  simp only [buildView, h.tables_eq, tablesAt_eq h.indexes version.releasedMs hknown, bind,
    Except.bind, List.map_map]
  rfl

theorem Holds.nodup_visibleTables (h : catalog.Holds versions tables) (atMs : UInt64) :
    ((visibleTables versions atMs tables).map (·.id)).Nodup :=
  h.nodup_tables.sublist (List.filter_sublist.map _)

theorem Holds.nodup_visibleIds (h : catalog.Holds versions tables) (atMs : UInt64)
    {table : TableDescriptor} (htable : table ∈ visibleTables versions atMs tables) :
    (visibleIds versions atMs table.columns).Nodup :=
  (h.nodup_columns table (List.mem_filter.mp htable).1).sublist (List.filter_sublist.map _)

/-- A version sees the tables that are valid at its release in the registry's order, and of each
of them, and of no other table, the columns that are. Ordinals and ids translate into one
another in every enumeration that 32-bit ordinals can count. -/
theorem view_enumerates {registry : Registry} (hload : load registry = .ok catalog)
    (hversions : registry.versions = .ok versions) (htables : registry.tables = .ok tables)
    (hknown : ∀ table ∈ tables, table.validity.IsKnown versions ∧
      ∀ column ∈ table.columns, column.validity.IsKnown versions)
    {version : ProtocolVersion} (hversion : version ∈ versions) :
    ∃ view : View, catalog.view version.token = .ok view ∧
      view.tables.ids = (visibleTables versions version.releasedMs tables).map (·.id) ∧
      (∀ id, (∃ columns, view.columns[id]? = some columns) ↔ id ∈ view.tables.ids) ∧
      (∀ table ∈ visibleTables versions version.releasedMs tables,
        view.columns[table.id]? =
          some (⟨visibleIds versions version.releasedMs table.columns⟩ : Enumeration)) ∧
      (view.tables.ids.length ≤ Nat.pow 2 31 → view.tables.Inverts) ∧
      ∀ (id : Int32) (columns : Enumeration), view.columns[id]? = some columns →
        columns.ids.length ≤ Nat.pow 2 31 → columns.Inverts := by
  have hholds := holds_of_load hload hversions htables
  have hnodup := hholds.nodup_visibleTables version.releasedMs
  refine ⟨_, hholds.view_eq hknown hversion, rfl, ?_, ?_, ?_, ?_⟩
  · intro id
    simp only [getElem?_ofList_map_eq_some_iff hnodup, List.mem_map]
    constructor
    · intro h
      obtain ⟨columns, table, htable, hid, -⟩ := h
      exact ⟨table, htable, hid⟩
    · intro h
      obtain ⟨table, htable, hid⟩ := h
      exact ⟨_, table, htable, hid, rfl⟩
  · intro table htable
    exact (getElem?_ofList_map_eq_some_iff hnodup).mpr ⟨table, htable, rfl, rfl⟩
  · exact Enumeration.inverts_of_nodup hnodup
  · intro id columns hcolumns
    obtain ⟨table, htable, -, rfl⟩ := (getElem?_ofList_map_eq_some_iff hnodup).mp hcolumns
    exact Enumeration.inverts_of_nodup (hholds.nodup_visibleIds _ htable)

/-- A table with a column that the first version did not have. -/
def jobs : TableDescriptor where
  id := 5
  name := "jobs"
  validity := { since := "v1" }
  columns := [⟨4, "state", { since := "v2" }⟩, ⟨1, "id", { since := "v1" }⟩]

/-- The second version has lost table 3 and has a new table 7. -/
def secondEdition : List TableDescriptor :=
  [jobs,
    { id := 3, name := "queues", validity := { since := "v1", last := some "v2" } },
    { id := 7, name := "lanes", validity := { since := "v2" } }]

def twoVersions : List ProtocolVersion :=
  [⟨"v2", 20⟩, ⟨"v1", 10⟩]

theorem view_enumerates_of_secondEdition :
    ∃ catalog, load ⟨.ok twoVersions, .ok secondEdition⟩ = .ok catalog ∧
      ∃ view : View, catalog.view "v2" = .ok view ∧ view.tables.ids = [5, 7] ∧
        view.columns[(5 : Int32)]? = some ⟨[4, 1]⟩ ∧ view.columns[(3 : Int32)]? = none ∧
        view.tables.Inverts := by
  cases hload : load ⟨.ok twoVersions, .ok secondEdition⟩ with
  | error fault =>
      have hloads : (load ⟨.ok twoVersions, .ok secondEdition⟩).isOk = true := by decide +kernel
      rw [hload] at hloads
      cases hloads
  | ok catalog =>
      refine ⟨catalog, rfl, ?_⟩
      have hknown : ∀ table ∈ secondEdition, table.validity.IsKnown twoVersions ∧
          ∀ column ∈ table.columns, column.validity.IsKnown twoVersions := by decide +kernel
      have hversion : (⟨"v2", 20⟩ : ProtocolVersion) ∈ twoVersions := List.mem_cons_self
      obtain ⟨view, hview, hids, hcolumns, hvisible, hinverts, -⟩ :=
        view_enumerates hload rfl rfl hknown hversion
      have hlist : view.tables.ids = [5, 7] := hids.trans (by decide +kernel)
      refine ⟨view, hview, hlist, ?_, ?_, hinverts (by rw [hlist]; decide)⟩
      · exact (hvisible jobs (by decide +kernel)).trans (by decide +kernel)
      · rw [Option.eq_none_iff_forall_ne_some]
        intro columns h
        have hmem := (hcolumns 3).mp ⟨columns, h⟩
        rw [hlist] at hmem
        exact absurd hmem (by decide)

end Catalog

end ControlPlane
