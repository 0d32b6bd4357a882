/-
# Putting a table into the list

A table that is put into the registry's list moves others in the enumerations of some versions
and not of others. A version at whose release the table is not valid notices nothing. Any other
version counts the new table between the tables it stands between, and only the tables after it
move, by one.

Not every descriptor need name known versions for this. A version whose view could not be built
before fails in the same way afterwards.
-/

import ControlPlane.Proofs.Master.Creation
import ControlPlane.Proofs.Master.RowVisibility
import ControlPlane.Proofs.Protocol.Loading

namespace ControlPlane

open Std (ExtTreeMap)

/-! ## Enumerations with one id more -/

namespace Enumeration

variable {before after : List Int32} {id : Int32}

/-- With and without one id more, ordinals and ids determine each other. -/
theorem inverts_insert (hnodup : (before ++ id :: after).Nodup)
    (hlength : before.length + after.length < Nat.pow 2 31) :
    Inverts ⟨before ++ after⟩ ∧ Inverts ⟨before ++ id :: after⟩ := by
  constructor
  · apply inverts_of_nodup (List.nodup_middle.mp hnodup).of_cons
    rw [List.length_append]
    omega
  · apply inverts_of_nodup hnodup
    rw [List.length_append, List.length_cons]
    omega

theorem toCanonical_insert_of_lt {ordinal : Int32} (h : ordinal.toInt < before.length) :
    toCanonical ⟨before ++ id :: after⟩ ordinal = toCanonical ⟨before ++ after⟩ ordinal := by
  rw [toCanonical, toCanonical]
  split
  · have hlt : ordinal.toInt.toNat < before.length := by omega
    rw [List.getElem?_append_left hlt, List.getElem?_append_left hlt]
  · rfl

theorem toCanonical_insert_self {ordinal : Int32} (h : ordinal.toInt = before.length) :
    toCanonical ⟨before ++ id :: after⟩ ordinal = id := by
  rw [toCanonical, h, if_pos (Int.natCast_nonneg _), Int.toNat_natCast,
    List.getElem?_append_right (Nat.le_refl _), Nat.sub_self]
  rfl

theorem toCanonical_insert_of_le {ordinal ordinal' : Int32} (h : before.length ≤ ordinal.toInt)
    (hnext : ordinal'.toInt = ordinal.toInt + 1) :
    toCanonical ⟨before ++ id :: after⟩ ordinal' = toCanonical ⟨before ++ after⟩ ordinal := by
  have hle : before.length ≤ ordinal.toInt.toNat := by omega
  have hnat : ordinal'.toInt.toNat = ordinal.toInt.toNat + 1 := by omega
  have hposition : ordinal.toInt.toNat + 1 - before.length =
      ordinal.toInt.toNat - before.length + 1 := by omega
  rw [toCanonical, toCanonical, if_pos (by omega), if_pos (by omega), hnat,
    List.getElem?_append_right (by omega), List.getElem?_append_right hle, hposition,
    List.getElem?_cons_succ]

section

variable (h : Inverts ⟨before ++ after⟩) (h' : Inverts ⟨before ++ id :: after⟩) {other : Int32}
include h h'

theorem toOrdinal_insert_of_mem_before (hother : other ∈ before) :
    (toOrdinal ⟨before ++ after⟩ other).toInt < before.length
      ∧ toOrdinal ⟨before ++ id :: after⟩ other = toOrdinal ⟨before ++ after⟩ other := by
  obtain ⟨o, ho, rfl⟩ := List.getElem_of_mem hother
  have hold := h.toOrdinal_eq o (by simp; omega)
  have hnew := h'.toOrdinal_eq o (by simp; omega)
  simp only [List.getElem_append_left ho] at hold hnew
  refine ⟨by omega, ?_⟩
  rw [← Int32.toInt_inj, hold, hnew]

theorem toOrdinal_insert_of_mem_after (hother : other ∈ after) :
    before.length ≤ (toOrdinal ⟨before ++ after⟩ other).toInt
      ∧ (toOrdinal ⟨before ++ id :: after⟩ other).toInt =
        (toOrdinal ⟨before ++ after⟩ other).toInt + 1 := by
  obtain ⟨o, ho, rfl⟩ := List.getElem_of_mem hother
  have hold := h.toOrdinal_eq (before.length + o) (by simp; omega)
  have hnew := h'.toOrdinal_eq (before.length + (o + 1)) (by simp; omega)
  simp only [List.getElem_append_right (Nat.le_add_right _ _), Nat.add_sub_cancel_left,
    List.getElem_cons_succ] at hold hnew
  omega

omit h in
theorem toOrdinal_insert_self : (toOrdinal ⟨before ++ id :: after⟩ id).toInt = before.length := by
  have hnew := h'.toOrdinal_eq before.length (by simp)
  simpa using hnew

end

end Enumeration

/-! ## Views with one table more -/

namespace Catalog

variable {versions : List ProtocolVersion} {index : ReleaseIndex} {atMs : UInt64}
  {before after : List TableDescriptor} {table : TableDescriptor}

theorem tablesAt_append (before after : List TableDescriptor) :
    tablesAt index atMs (before ++ after) = do
      let first ← tablesAt index atMs before
      let second ← tablesAt index atMs after
      return first ++ second := by
  induction before with
  | nil =>
      rw [List.nil_append, tablesAt]
      cases tablesAt index atMs after <;> rfl
  | cons table rest ih =>
      rw [List.cons_append, tablesAt, tablesAt, ih]
      cases index.covers table.validity atMs with
      | error fault => rfl
      | ok covered =>
          cases covered with
          | false => rfl
          | true =>
              cases columnsAt index atMs table.columns with
              | error fault => rfl
              | ok columns =>
                  cases tablesAt index atMs rest with
                  | error fault => rfl
                  | ok entries => cases tablesAt index atMs after <;> rfl

section

variable (hindexes : index.Indexes versions) (hknown : table.IsKnown versions)
include hindexes hknown

theorem tablesAt_insert_of_not_valid (hvalid : table.validity.isValidAt versions atMs = false) :
    tablesAt index atMs (before ++ table :: after) = tablesAt index atMs (before ++ after) := by
  rw [tablesAt_append, tablesAt_append, tablesAt, ReleaseIndex.covers_eq hindexes hknown.1, hvalid]
  rfl

theorem tablesAt_insert_of_valid (hvalid : table.validity.isValidAt versions atMs = true)
    (before after : List TableDescriptor) :
    (∃ fault, tablesAt index atMs (before ++ after) = .error fault
        ∧ tablesAt index atMs (before ++ table :: after) = .error fault)
    ∨ ∃ first second, tablesAt index atMs before = .ok first
        ∧ tablesAt index atMs after = .ok second
        ∧ tablesAt index atMs (before ++ after) = .ok (first ++ second)
        ∧ tablesAt index atMs (before ++ table :: after) =
          .ok (first ++ (table.id, ⟨visibleIds versions atMs table.columns⟩) :: second) := by
  rw [tablesAt_append, tablesAt_append, tablesAt, ReleaseIndex.covers_eq hindexes hknown.1, hvalid,
    columnsAt_eq hindexes atMs hknown.2]
  cases tablesAt index atMs before with
  | error fault => exact .inl ⟨fault, rfl, rfl⟩
  | ok first =>
      cases tablesAt index atMs after with
      | error fault => exact .inl ⟨fault, rfl, rfl⟩
      | ok second => exact .inr ⟨first, second, rfl, rfl, rfl, rfl⟩

end

/-! ### Columns -/

section

variable {first second : List (Int32 × Enumeration)} {id other : Int32} {columns : Enumeration}

theorem getElem?_ofList_eq_find? {entries : List (Int32 × Enumeration)}
    (hnodup : (entries.map (·.1)).Nodup) :
    (ExtTreeMap.ofList entries)[other]? =
      (entries.find? fun entry => entry.1 == other).map (·.2) := by
  have hfind := getElem?_ofList_map_eq_find? Prod.fst Prod.snd hnodup other
  rwa [show (entries.map fun entry => (entry.1, entry.2)) = entries from List.map_id _] at hfind

/-- Only the columns of one table are found under its id. -/
theorem columns_insert_of_ne (hnodup : ((first ++ (id, columns) :: second).map (·.1)).Nodup)
    (hother : other ≠ id) :
    (ExtTreeMap.ofList (first ++ (id, columns) :: second))[other]? =
      (ExtTreeMap.ofList (first ++ second))[other]? := by
  have hfewer : ((first ++ second).map (·.1)).Nodup := by
    rw [List.map_append, List.map_cons, List.nodup_middle] at hnodup
    rw [List.map_append]
    exact hnodup.of_cons
  rw [getElem?_ofList_eq_find? hnodup, getElem?_ofList_eq_find? hfewer, List.find?_append,
    List.find?_append, List.find?_cons_of_neg]
  simpa using hother.symm

end

/-! ### Catalogs with one table more -/

/-- The catalog with a table at a position; a position beyond the end means the end. -/
def insertTable (catalog : Catalog) (position : Nat) (table : TableDescriptor) : Catalog :=
  { catalog with tables := catalog.tables.take position ++ table :: catalog.tables.drop position }

section

variable {tables : List TableDescriptor} {catalog : Catalog}

theorem length_visibleTables_le (versions : List ProtocolVersion) (atMs : UInt64)
    (tables : List TableDescriptor) (position : Nat) :
    (visibleTables versions atMs (tables.take position)).length +
      (visibleTables versions atMs (tables.drop position)).length ≤ tables.length := by
  rw [← List.length_append, visibleTables, visibleTables, ← List.filter_append,
    List.take_append_drop]
  exact List.length_filter_le _ _

/-- Ids stay distinct when a fresh one is put among them. -/
theorem nodup_insert (hnodup : (tables.map (·.id)).Nodup)
    (hfresh : table.id ∉ tables.map (·.id)) (position : Nat) :
    ((tables.take position ++ table :: tables.drop position).map (·.id)).Nodup := by
  rw [List.map_append, List.map_cons, List.nodup_middle, ← List.map_append, List.take_append_drop]
  exact List.nodup_cons.mpr ⟨hfresh, hnodup⟩

theorem load_insertTable
    (hload : load ⟨.ok versions, .ok tables⟩ = .ok catalog)
    (hfresh : table.id ∉ tables.map (·.id)) (hcolumns : (table.columns.map (·.id)).Nodup)
    (position : Nat) :
    load ⟨.ok versions, .ok (tables.take position ++ table :: tables.drop position)⟩ =
      .ok (catalog.insertTable position table) := by
  obtain ⟨_, _, _, hversions, hindex, htables, hnodup, hcolumns', rfl⟩ := load_eq_ok_iff.mp hload
  cases hversions
  cases htables
  refine load_eq_ok_iff.mpr ⟨versions, _, _, rfl, hindex, rfl,
    nodup_insert hnodup hfresh position, ?_, rfl⟩
  intro other hother
  rcases List.mem_append.mp hother with hbefore | hrest
  · exact hcolumns' other (List.mem_of_mem_take hbefore)
  · rcases List.mem_cons.mp hrest with rfl | hafter
    · exact hcolumns
    · exact hcolumns' other (List.mem_of_mem_drop hafter)

/-- The view that counts some tables, each with its columns. -/
def viewOf (version : ProtocolVersion) (entries : List (Int32 × Enumeration)) : View where
  version
  tables := ⟨entries.map (·.1)⟩
  columns := ExtTreeMap.ofList entries

theorem Holds.view_eq_map (h : catalog.Holds versions tables) {version : ProtocolVersion}
    (hversion : version ∈ versions) :
    catalog.view version.token =
      (tablesAt catalog.index version.releasedMs tables).map (viewOf version) := by
  rw [view, h.find_version version hversion]
  simp only [buildView, h.tables_eq]
  cases tablesAt catalog.index version.releasedMs tables <;> rfl

variable (hload : load ⟨.ok versions, .ok tables⟩ = .ok catalog)
  (hfresh : table.id ∉ tables.map (·.id)) (hcolumns : (table.columns.map (·.id)).Nodup)
  (hknown : table.IsKnown versions) {version : ProtocolVersion} (hversion : version ∈ versions)
include hload hfresh hcolumns hknown hversion

theorem view_insertTable_of_not_valid
    (hvalid : table.validity.isValidAt versions version.releasedMs = false) (position : Nat) :
    (catalog.insertTable position table).view version.token = catalog.view version.token := by
  have hholds := holds_of_load hload rfl rfl
  have hholds' := holds_of_load (load_insertTable hload hfresh hcolumns position) rfl rfl
  rw [hholds'.view_eq_map hversion, hholds.view_eq_map hversion, insertTable,
    tablesAt_insert_of_not_valid hholds.indexes hknown hvalid, List.take_append_drop]

/-- The view of a version at whose release the new table is valid: either there is none, now as
before, or it counts the new table between the others. -/
theorem view_insertTable_of_valid
    (hvalid : table.validity.isValidAt versions version.releasedMs = true) (position : Nat) :
    let before := visibleTables versions version.releasedMs (tables.take position)
    let after := visibleTables versions version.releasedMs (tables.drop position)
    (∃ fault, catalog.view version.token = .error fault
        ∧ (catalog.insertTable position table).view version.token = .error fault)
    ∨ ∃ view view', catalog.view version.token = .ok view
        ∧ (catalog.insertTable position table).view version.token = .ok view'
        ∧ view.tables = ⟨before.map (·.id) ++ after.map (·.id)⟩
        ∧ view'.tables = ⟨before.map (·.id) ++ table.id :: after.map (·.id)⟩
        ∧ view'.tables.ids.Nodup
        ∧ ∀ other, other ≠ table.id → view'.columns[other]? = view.columns[other]? := by
  intro before after
  have hholds := holds_of_load hload rfl rfl
  have hholds' := holds_of_load (load_insertTable hload hfresh hcolumns position) rfl rfl
  have hindex := ofVersions_of_load hload rfl
  have hvisible : visibleTables versions version.releasedMs
      (tables.take position ++ table :: tables.drop position) = before ++ table :: after := by
    simp [visibleTables, hvalid, before, after]
  have hnodup := hholds'.nodup_visibleTables version.releasedMs
  rw [hvisible, List.map_append, List.map_cons] at hnodup
  rw [hholds'.view_eq_map hversion, hholds.view_eq_map hversion, insertTable]
  have hparts := tablesAt_insert_of_valid hholds.indexes hknown hvalid (tables.take position)
    (tables.drop position)
  rw [List.take_append_drop] at hparts
  rcases hparts with ⟨fault, hold, hnew⟩ | ⟨first, second, hfirst, hsecond, hold, hnew⟩
  · exact .inl ⟨fault, congrArg (Except.map _) hold, congrArg (Except.map _) hnew⟩
  · have hbefore : first.map (·.1) = before.map (·.id) := ids_of_tablesAt hindex hfirst
    have hafter : second.map (·.1) = after.map (·.id) := ids_of_tablesAt hindex hsecond
    have hids : (first ++ (table.id, ⟨visibleIds versions version.releasedMs table.columns⟩) ::
        second).map (·.1) = before.map (·.id) ++ table.id :: after.map (·.id) := by
      rw [List.map_append, List.map_cons, hbefore, hafter]
    refine .inr ⟨viewOf version (first ++ second), viewOf version (first ++ _ :: second),
      congrArg (Except.map _) hold, congrArg (Except.map _) hnew, ?_,
      congrArg Enumeration.mk hids, ?_, ?_⟩
    · rw [viewOf, List.map_append, hbefore, hafter]
    · rw [viewOf, hids]
      exact hnodup
    · intro other hother
      apply columns_insert_of_ne _ hother
      rw [hids]
      exact hnodup

theorem view_insertTable_of_unaffected
    (h : table.validity.isValidAt versions version.releasedMs = false
      ∨ ∃ fault, catalog.view version.token = .error fault) (position : Nat) :
    (catalog.insertTable position table).view version.token = catalog.view version.token := by
  cases hvalid : table.validity.isValidAt versions version.releasedMs with
  | false =>
      exact view_insertTable_of_not_valid hload hfresh hcolumns hknown hversion hvalid position
  | true =>
      obtain ⟨fault, hfault⟩ := h.resolve_left (by simp [hvalid])
      rcases view_insertTable_of_valid hload hfresh hcolumns hknown hversion hvalid position with
        ⟨fault', hold, hnew⟩ | ⟨view, view', hold, -⟩
      · rw [hold, hnew]
      · cases hfault.symm.trans hold

end

end Catalog

/-! ## What a client is told -/

theorem Store.registry_of_isAvailable {store : Store} (h : store.isAvailable = true) :
    store.registry = ⟨.ok store.snapshot.versions, .ok store.snapshot.tables⟩ := by
  rw [registry, read, if_pos h]
  rfl

namespace World

variable {w later : World} {catalog : Catalog}

/-- What a client is told about a version. -/
def told {α : Type} (w : World) (query : VersionQuery α) : Except Fault α :=
  (w.master.ask w.env query).1

theorem told_eq (hcurrent : w.master.bridge.Agrees (Catalog.load w.store.registry))
    (hload : Catalog.load w.store.registry = .ok catalog) {α : Type} (query : VersionQuery α) :
    w.told query = query.answer (catalog.view query.version) := by
  have htold : w.told query = w.store.ask query := Master.Keeps.ask_fst hcurrent query
  rw [htold, Store.ask, hload]
  rfl

/-- An announcement that concerns descriptors leaves nothing in the bridge that could be out of
date. -/
theorem agrees_announce {event : InvalidationEvent}
    (hgone : .protocolMetadata ∈ w.master.invalidation.classesFor event.table)
    (reading : Except Fault Catalog) :
    (w.step (.announce event)).master.bridge.Agrees reading := by
  obtain ⟨hcatalog, hviews⟩ := (w.master.keeps_anything.announce event).bridge.1 hgone
  exact Bridge.agrees_of_empty hcatalog hviews reading

/-- In the later world the clients of a version count one table more. It stands between those
before and those after it; the former keep their ordinals, the latter move by one, and no other
table has its columns counted differently. -/
structure MakesRoom (w later : World) (token : String) (before after : List TableDescriptor)
    (table : TableDescriptor) : Prop where
  ordinal_before : ∀ other ∈ before, ∃ ordinal : Int32, ordinal.toInt < before.length
    ∧ w.told (.tableToOrdinal token other.id) = .ok ordinal
    ∧ later.told (.tableToOrdinal token other.id) = .ok ordinal
  ordinal_after : ∀ other ∈ after, ∃ ordinal ordinal' : Int32,
    before.length ≤ ordinal.toInt ∧ ordinal'.toInt = ordinal.toInt + 1
    ∧ w.told (.tableToOrdinal token other.id) = .ok ordinal
    ∧ later.told (.tableToOrdinal token other.id) = .ok ordinal'
  ordinal_new : ∃ ordinal : Int32, ordinal.toInt = before.length
    ∧ later.told (.tableToOrdinal token table.id) = .ok ordinal
  /-- Ids that are not counted are still not counted. -/
  ordinal_other : ∀ id, id ∉ before.map (·.id) → id ∉ after.map (·.id) → id ≠ table.id →
    w.told (.tableToOrdinal token id) = .ok unmapped
    ∧ later.told (.tableToOrdinal token id) = .ok unmapped
  canonical_before : ∀ ordinal : Int32, ordinal.toInt < before.length →
    later.told (.tableToCanonical token ordinal) = w.told (.tableToCanonical token ordinal)
  canonical_new : ∀ ordinal : Int32, ordinal.toInt = before.length →
    later.told (.tableToCanonical token ordinal) = .ok table.id
  canonical_after : ∀ ordinal ordinal' : Int32,
    before.length ≤ ordinal.toInt → ordinal'.toInt = ordinal.toInt + 1 →
    later.told (.tableToCanonical token ordinal') = w.told (.tableToCanonical token ordinal)
  columnToCanonical : ∀ other ordinal : Int32, other ≠ table.id →
    later.told (.columnToCanonical token other ordinal) =
      w.told (.columnToCanonical token other ordinal)
  columnToOrdinal : ∀ other column : Int32, other ≠ table.id →
    later.told (.columnToOrdinal token other column) = w.told (.columnToOrdinal token other column)

/-- It suffices that one view makes room for the table. -/
theorem MakesRoom.of_views {token : String} {before after : List TableDescriptor}
    {table : TableDescriptor} {view view' : View}
    (htold : ∀ read, w.told (.readOff token read) = .ok (read view))
    (htold' : ∀ read, later.told (.readOff token read) = .ok (read view'))
    (htables : view.tables = ⟨before.map (·.id) ++ after.map (·.id)⟩)
    (htables' : view'.tables = ⟨before.map (·.id) ++ table.id :: after.map (·.id)⟩)
    (hinverts : view.tables.Inverts) (hinverts' : view'.tables.Inverts)
    (hcolumns : ∀ other, other ≠ table.id → view'.columns[other]? = view.columns[other]?) :
    MakesRoom w later token before after table := by
  have hlength : (before.map (·.id)).length = before.length := List.length_map _
  rw [htables] at hinverts
  rw [htables'] at hinverts'
  have hordinal (id : Int32) : w.told (.tableToOrdinal token id) =
      .ok (Enumeration.toOrdinal ⟨before.map (·.id) ++ after.map (·.id)⟩ id) := by
    rw [← htables]
    exact htold fun view => view.tables.toOrdinal id
  have hordinal' (id : Int32) : later.told (.tableToOrdinal token id) =
      .ok (Enumeration.toOrdinal ⟨before.map (·.id) ++ table.id :: after.map (·.id)⟩ id) := by
    rw [← htables']
    exact htold' fun view => view.tables.toOrdinal id
  have hcanonical (ordinal : Int32) : w.told (.tableToCanonical token ordinal) =
      .ok (Enumeration.toCanonical ⟨before.map (·.id) ++ after.map (·.id)⟩ ordinal) := by
    rw [← htables]
    exact htold fun view => view.tables.toCanonical ordinal
  have hcanonical' (ordinal : Int32) : later.told (.tableToCanonical token ordinal) =
      .ok (Enumeration.toCanonical ⟨before.map (·.id) ++ table.id :: after.map (·.id)⟩
        ordinal) := by
    rw [← htables']
    exact htold' fun view => view.tables.toCanonical ordinal
  constructor
  case ordinal_before =>
    intro other hother
    obtain ⟨hlt, hsame⟩ := Enumeration.toOrdinal_insert_of_mem_before hinverts hinverts'
      (List.mem_map_of_mem hother)
    rw [hlength] at hlt
    exact ⟨_, hlt, hordinal other.id, (hordinal' other.id).trans (congrArg _ hsame)⟩
  case ordinal_after =>
    intro other hother
    obtain ⟨hle, hnext⟩ := Enumeration.toOrdinal_insert_of_mem_after hinverts hinverts'
      (List.mem_map_of_mem hother)
    rw [hlength] at hle
    exact ⟨_, _, hle, hnext, hordinal other.id, hordinal' other.id⟩
  case ordinal_new =>
    have hnew := Enumeration.toOrdinal_insert_self hinverts'
    rw [hlength] at hnew
    exact ⟨_, hnew, hordinal' table.id⟩
  case ordinal_other =>
    intro id hbefore hafter hne
    have hnone := hinverts.toOrdinal_eq_unmapped id (by simp [hbefore, hafter])
    have hnone' := hinverts'.toOrdinal_eq_unmapped id (by simp [hbefore, hafter, hne])
    rw [hordinal, hordinal', hnone, hnone']
    exact ⟨rfl, rfl⟩
  case canonical_before =>
    intro ordinal hlt
    rw [← hlength] at hlt
    rw [hcanonical, hcanonical', Enumeration.toCanonical_insert_of_lt hlt]
  case canonical_new =>
    intro ordinal hself
    rw [← hlength] at hself
    rw [hcanonical', Enumeration.toCanonical_insert_self hself]
  case canonical_after =>
    intro ordinal ordinal' hle hnext
    rw [← hlength] at hle
    rw [hcanonical, hcanonical', Enumeration.toCanonical_insert_of_le hle hnext]
  case columnToCanonical =>
    intro other ordinal hne
    rw [VersionQuery.columnToCanonical, htold, htold', hcolumns other hne]
  case columnToOrdinal =>
    intro other column hne
    rw [VersionQuery.columnToOrdinal, htold, htold', hcolumns other hne]

section

variable {extra : List (String × List ResourceClass)} {table : TableDescriptor}
  {version : ProtocolVersion} {event : InvalidationEvent}

theorem load_run_insertTable (hload : Catalog.load w.store.registry = .ok catalog)
    (hfresh : table.id ∉ w.store.snapshot.tables.map (·.id))
    (hcolumns : (table.columns.map (·.id)).Nodup) (position : Nat) (event : InvalidationEvent) :
    Catalog.load (w.run [.change (.insertTable position table), .announce event]).store.registry =
      .ok (catalog.insertTable position table) := by
  have havailable := Store.isAvailable_of_load hload
  have havailable' : (w.store.change (.insertTable position table)).isAvailable = true := havailable
  rw [Store.registry_of_isAvailable havailable] at hload
  change Catalog.load (w.store.change (.insertTable position table)).registry = _
  rw [Store.registry_of_isAvailable havailable']
  exact Catalog.load_insertTable hload hfresh hcolumns position

/-- The clients of a version, before and after a table was put into the list at any position and
the change announced to a master that goes by the built-in rules and any further ones. Where the
version has no view, or the table is not valid at its release, they are told what they were told
before, whatever they ask. Otherwise their enumeration makes room for the table. -/
theorem insertTable_makesRoom
    (hrules : w.master.invalidation = InvalidationRules.builtin.addAll extra)
    (hload : Catalog.load w.store.registry = .ok catalog)
    (hlength : w.store.snapshot.tables.length < Nat.pow 2 31)
    (hcurrent : w.master.bridge.Agrees (Catalog.load w.store.registry))
    (hversion : version ∈ w.store.snapshot.versions)
    (hfresh : table.id ∉ w.store.snapshot.tables.map (·.id))
    (hcolumns : (table.columns.map (·.id)).Nodup)
    (hknown : table.IsKnown w.store.snapshot.versions)
    (hevent : event.table = "table_descriptors") (position : Nat) :
    let later := w.run [.change (.insertTable position table), .announce event]
    let visible := visibleTables w.store.snapshot.versions version.releasedMs
    let isValid := table.validity.isValidAt w.store.snapshot.versions version.releasedMs
    ((isValid = false ∨ ∃ fault, w.told (.whole version.token) = .error fault) →
      ∀ {α : Type} (query : VersionQuery α), query.version = version.token →
        later.told query = w.told query)
    ∧ (isValid = true → ∀ view, w.told (.whole version.token) = .ok view →
      MakesRoom w later version.token (visible (w.store.snapshot.tables.take position))
        (visible (w.store.snapshot.tables.drop position)) table) := by
  intro later visible isValid
  have hgone : .protocolMetadata ∈ w.master.invalidation.classesFor event.table := by
    rw [hrules, hevent]
    exact mem_classesFor_addAll (cover_builtin .registry _ (by decide) _ (by decide)) extra
  have hcurrent' : later.master.bridge.Agrees (Catalog.load later.store.registry) :=
    agrees_announce (w := w.step (.change (.insertTable position table))) hgone _
  have hload' := load_run_insertTable hload hfresh hcolumns position event
  have htold {α : Type} := told_eq hcurrent hload (α := α)
  have htold' {α : Type} := told_eq hcurrent' hload' (α := α)
  rw [Store.registry_of_isAvailable (Store.isAvailable_of_load hload)] at hload
  constructor
  · intro h α query hquery
    rw [htold, VersionQuery.whole] at h
    rw [htold, htold', hquery, Catalog.view_insertTable_of_unaffected hload hfresh hcolumns hknown
      hversion h position]
  · intro hvalid view hview
    rw [htold, VersionQuery.whole] at hview
    rcases Catalog.view_insertTable_of_valid hload hfresh hcolumns hknown hversion hvalid position
      with ⟨fault, hold, -⟩ | ⟨view, view', hold, hnew, htables, htables', hnodup', hcolumns'⟩
    · cases hold.symm.trans hview
    · have hcount := Catalog.length_visibleTables_le w.store.snapshot.versions version.releasedMs
        w.store.snapshot.tables position
      rw [htables'] at hnodup'
      obtain ⟨hinverts, hinverts'⟩ := Enumeration.inverts_insert hnodup' (by
        rw [List.length_map, List.length_map]
        omega)
      rw [← htables] at hinverts
      rw [← htables'] at hinverts'
      refine .of_views (fun read => ?_) (fun read => ?_) htables htables' hinverts hinverts'
        hcolumns'
      · rw [htold, VersionQuery.readOff, hold]
      · rw [htold', VersionQuery.readOff, hnew]

end

/-- A table of the second version is put between two of the first. -/
theorem insertTable_makesRoom_of_lanes :
    let queues : TableDescriptor := { id := 3, name := "queues", validity := { since := "v1" } }
    let lanes : TableDescriptor := { id := 7, name := "lanes", validity := { since := "v2" } }
    let store : Store := {
      snapshot := .ofDocument {
        root := ⟨1⟩
        protocolVersions := Catalog.twoVersions
        tables := [Catalog.jobs, queues] }
      rules := {} }
    let w : World := ⟨store, .zero, .unused store⟩
    let event : InvalidationEvent := { table := "table_descriptors" }
    let later := w.run [.change (.insertTable 1 lanes), .announce event]
    later.told (.tableToOrdinal "v1" 3) = w.told (.tableToOrdinal "v1" 3)
      ∧ MakesRoom w later "v2" [Catalog.jobs] [queues] lanes := by
  intro queues lanes store w event later
  have hviews : (Catalog.load store.registry >>= (·.view "v2")).isOk = true := by decide +kernel
  cases hload : Catalog.load store.registry with
  | error fault =>
      rw [hload] at hviews
      cases hviews
  | ok catalog =>
      have hcurrent : w.master.bridge.Agrees (Catalog.load w.store.registry) :=
        Bridge.agrees_of_empty rfl rfl _
      have hknown : lanes.IsKnown Catalog.twoVersions := by
        refine ⟨by decide +kernel, fun column hcolumn => ?_⟩
        cases hcolumn
      have hrules : w.master.invalidation = InvalidationRules.builtin.addAll [] := rfl
      have hevent : event.table = "table_descriptors" := rfl
      have hfew : w.store.snapshot.tables.length < Nat.pow 2 31 := by decide
      have hfresh : lanes.id ∉ w.store.snapshot.tables.map (·.id) := by decide +kernel
      have hfirst : (⟨"v1", 10⟩ : ProtocolVersion) ∈ w.store.snapshot.versions := by decide +kernel
      have hsecond : (⟨"v2", 20⟩ : ProtocolVersion) ∈ w.store.snapshot.versions := by decide +kernel
      constructor
      · exact (insertTable_makesRoom hrules hload hfew hcurrent hfirst hfresh List.nodup_nil hknown
          hevent 1).1 (.inl (by decide +kernel)) _ rfl
      · cases hview : w.told (.whole "v2") with
        | error fault =>
            rw [told_eq hcurrent hload] at hview
            have hfault : catalog.view "v2" = .error fault := hview
            rw [hload] at hviews
            change (catalog.view "v2").isOk = true at hviews
            rw [hfault] at hviews
            cases hviews
        | ok view =>
            have hmakes := (insertTable_makesRoom hrules hload hfew hcurrent hsecond hfresh
              List.nodup_nil hknown hevent 1).2 (by decide +kernel) view hview
            have hbefore :
                visibleTables Catalog.twoVersions 20 [Catalog.jobs] = [Catalog.jobs] := by
              decide +kernel
            have hafter : visibleTables Catalog.twoVersions 20 [queues] = [queues] := by
              decide +kernel
            change MakesRoom w later "v2" (visibleTables Catalog.twoVersions 20 [Catalog.jobs])
              (visibleTables Catalog.twoVersions 20 [queues]) lanes at hmakes
            rwa [hbefore, hafter] at hmakes

end World

end ControlPlane
