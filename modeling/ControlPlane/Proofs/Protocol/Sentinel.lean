/-
# What the sentinel stands for

A translation answers with a sentinel where there is nothing to translate to. The sentinel is a
number like any id, and nothing on the way from a document to an enumeration keeps a table or a
column from bearing that number. Where none that is counted bears it, the sentinel marks exactly
the ordinals that clients of a version do not count.
-/

import ControlPlane.Proofs.Metadata.Acceptance
import ControlPlane.Proofs.Protocol.Generations

namespace ControlPlane

/-! ## What clients count -/

/-- Whether there is an enumeration and an ordinal is within it. -/
def Counts (ids? : Option (List Int32)) (ordinal : Int32) : Prop :=
  ∃ ids, ids? = some ids ∧ 0 ≤ ordinal.toInt ∧ ordinal.toInt < ids.length

/-- What an ordinal of an enumeration stands for. -/
def idAt? (ids? : Option (List Int32)) (ordinal : Int32) : Option Int32 :=
  if 0 ≤ ordinal.toInt then ids? >>= (·[ordinal.toInt.toNat]?) else none

@[simp]
theorem idAt?_none (ordinal : Int32) : idAt? none ordinal = none := by
  simp [idAt?]

theorem idAt?_eq_none_iff {ids? : Option (List Int32)} {ordinal : Int32} :
    idAt? ids? ordinal = none ↔ ¬ Counts ids? ordinal := by
  cases ids? with
  | none => simp [Counts]
  | some ids =>
      rw [idAt?]
      split
      · next hnonneg =>
        simp only [Option.bind_eq_bind, Option.bind_some, List.getElem?_eq_none_iff, Counts,
          Option.some.injEq, exists_eq_left']
        omega
      · next hneg => simp [Counts, hneg]

theorem exists_mem_of_idAt?_eq_some {ids? : Option (List Int32)} {ordinal id : Int32}
    (h : idAt? ids? ordinal = some id) : ∃ ids, ids? = some ids ∧ id ∈ ids := by
  rw [idAt?] at h
  split at h
  · obtain ⟨ids, hids, hid⟩ := Option.bind_eq_some_iff.mp h
    exact ⟨ids, hids, List.mem_of_getElem? hid⟩
  · cases h

theorem Enumeration.toCanonical_eq (e : Enumeration) (ordinal : Int32) :
    e.toCanonical ordinal = (idAt? (some e.ids) ordinal).getD unmapped := by
  rw [toCanonical, idAt?]
  split <;> rfl

namespace MetadataDocument

/-- The tables that clients of a version count, if there is the version. -/
def tableIds? (doc : MetadataDocument) (token : String) : Option (List Int32) :=
  (doc.protocolVersions.find? (·.token == token)).map fun version =>
    (visibleTables doc.protocolVersions version.releasedMs doc.tables).map (·.id)

/-- The columns that clients of a version count in a table, if they have the table. -/
def columnIds? (doc : MetadataDocument) (token : String) (table : Int32) :
    Option (List Int32) := do
  let version ← doc.protocolVersions.find? (·.token == token)
  let descriptor ←
    (visibleTables doc.protocolVersions version.releasedMs doc.tables).find? (·.id == table)
  return visibleIds doc.protocolVersions version.releasedMs descriptor.columns

variable {doc : MetadataDocument} {token : String} {table ordinal id : Int32}

theorem exists_table_of_idAt? (h : idAt? (doc.tableIds? token) ordinal = some id) :
    ∃ table ∈ doc.tables, table.id = id := by
  obtain ⟨ids, hids, hid⟩ := exists_mem_of_idAt?_eq_some h
  obtain ⟨version, -, rfl⟩ := Option.map_eq_some_iff.mp hids
  obtain ⟨table, htable, hid⟩ := List.mem_map.mp hid
  exact ⟨table, (List.mem_filter.mp htable).1, hid⟩

theorem exists_column_of_idAt? (h : idAt? (doc.columnIds? token table) ordinal = some id) :
    ∃ table ∈ doc.tables, ∃ column ∈ table.columns, column.id = id := by
  obtain ⟨ids, hids, hid⟩ := exists_mem_of_idAt?_eq_some h
  obtain ⟨version, -, hids⟩ := Option.bind_eq_some_iff.mp hids
  obtain ⟨descriptor, hdescriptor, hids⟩ := Option.bind_eq_some_iff.mp hids
  obtain rfl := Option.some.inj hids
  obtain ⟨column, hcolumn, hid⟩ := List.mem_map.mp hid
  have hvisible := List.mem_of_find?_eq_some hdescriptor
  exact ⟨descriptor, (List.mem_filter.mp hvisible).1, column, (List.mem_filter.mp hcolumn).1, hid⟩

/-- No table and no column has the sentinel as its id. -/
def SparesSentinel (doc : MetadataDocument) : Prop :=
  ∀ table ∈ doc.tables, table.id ≠ unmapped ∧ ∀ column ∈ table.columns, column.id ≠ unmapped

/-- Then no ordinal stands for it. -/
theorem SparesSentinel.idAt?_ne (h : doc.SparesSentinel) :
    (∀ token ordinal, idAt? (doc.tableIds? token) ordinal ≠ some unmapped)
      ∧ ∀ token table ordinal, idAt? (doc.columnIds? token table) ordinal ≠ some unmapped := by
  constructor
  · intro token ordinal heq
    obtain ⟨table, htable, hid⟩ := exists_table_of_idAt? heq
    exact (h table htable).1 hid
  · intro token table ordinal heq
    obtain ⟨descriptor, hdescriptor, column, hcolumn, hid⟩ := exists_column_of_idAt? heq
    exact (h descriptor hdescriptor).2 column hcolumn hid

end MetadataDocument

/-! ## Translations -/

namespace Store

variable {doc : MetadataDocument} {store : Store} (hstore : ofDocument doc = .ok store)
include hstore

theorem tableToCanonical_on (token : String) (ordinal : Int32) :
    (VersionQuery.tableToCanonical token ordinal).on (Catalog.load store.registry) =
      .ok ((idAt? (doc.tableIds? token) ordinal).getD unmapped) := by
  change (VersionQuery.tableToCanonical token ordinal).answer
    (Catalog.load store.registry >>= (·.view token)) = _
  rw [view_of_ofDocument hstore, MetadataDocument.tableIds?]
  cases doc.protocolVersions.find? (·.token == token) with
  | none =>
      rw [Option.map_none, idAt?_none]
      rfl
  | some version => exact congrArg _ (Enumeration.toCanonical_eq _ _)

theorem columnToCanonical_on (token : String) (table ordinal : Int32) :
    (VersionQuery.columnToCanonical token table ordinal).on (Catalog.load store.registry) =
      .ok ((idAt? (doc.columnIds? token table) ordinal).getD unmapped) := by
  obtain ⟨hvalidate, -⟩ := of_ofDocument hstore
  obtain ⟨-, -, hnodup, -⟩ := MetadataDocument.of_validate hvalidate
  change (VersionQuery.columnToCanonical token table ordinal).answer
    (Catalog.load store.registry >>= (·.view token)) = _
  rw [view_of_ofDocument hstore, MetadataDocument.columnIds?]
  cases doc.protocolVersions.find? (·.token == token) with
  | none =>
      rw [Option.bind_eq_bind, Option.bind_none, idAt?_none]
      rfl
  | some version =>
      have hvisible : ((visibleTables doc.protocolVersions version.releasedMs doc.tables).map
          (·.id)).Nodup := hnodup.sublist (List.filter_sublist.map _)
      simp only [VersionQuery.columnToCanonical, VersionQuery.readOff,
        getElem?_ofList_map_eq_find? _ _ hvisible, Option.bind_eq_bind, Option.bind_some]
      cases (visibleTables doc.protocolVersions version.releasedMs doc.tables).find?
          (·.id == table) with
      | none =>
          rw [Option.bind_none, idAt?_none]
          rfl
      | some descriptor => exact congrArg _ (Enumeration.toCanonical_eq _ _)

end Store

/-- Insisting on a translation refuses the sentinel, whatever it stands for. -/
theorem VersionQuery.insist_on {query : VersionQuery Int32} {reading : Except Fault Catalog}
    {id : Int32} (h : query.on reading = .ok id) (kind : OrdinalKind) (ordinal : Int32) :
    (query.insist kind ordinal).on reading =
      if id = unmapped then .error (.protocolMismatch query.version kind ordinal.toInt)
      else .ok id := by
  rw [VersionQuery.on] at h
  simp only [VersionQuery.on, insist, h]

namespace BridgeWorld

variable {w : BridgeWorld} {translate require : VersionQuery Int32} {refusal : Fault}
  {ids? : Option (List Int32)} {ordinal : Int32}

/-- What a client is told about a version. -/
def told {α : Type} (w : BridgeWorld) (query : VersionQuery α) : Except Fault α :=
  (w.bridge.ask w.registry query).1

theorem told_of_stays {steps : List BridgeStep}
    (hstays : ∀ step ∈ steps, ∀ registry, step ≠ .registry registry) (registry : Registry)
    {α : Type} (query : VersionQuery α) :
    ((new registry).run steps).told query = query.on (Catalog.load registry) := by
  obtain ⟨hregistry, hagrees⟩ := agrees_run (w := new registry) (Bridge.isEmpty_new.agrees _) hstays
  rw [told, hregistry]
  exact hagrees.gives.ask_fst query

/-- How an ordinal is translated: to what it stands for, or else to the sentinel. A caller who
insists on a translation is refused where the answer would be the sentinel. -/
structure Translates (w : BridgeWorld) (translate require : VersionQuery Int32) (refusal : Fault)
    (id? : Option Int32) : Prop where
  translate_eq : w.told translate = .ok (id?.getD unmapped)
  require_eq : w.told require =
    if id?.getD unmapped = unmapped then .error refusal else .ok (id?.getD unmapped)

/-- The sentinel is the answer exactly where nothing is counted, and a caller who insists on a
translation is refused exactly there. -/
structure MarksGaps (w : BridgeWorld) (translate require : VersionQuery Int32) (refusal : Fault)
    (ids? : Option (List Int32)) (ordinal : Int32) : Prop where
  unmapped_iff : w.told translate = .ok unmapped ↔ ¬ Counts ids? ordinal
  require_iff : (∃ id, w.told require = .ok id) ↔ Counts ids? ordinal
  refusal_of_not_counts : ¬ Counts ids? ordinal → w.told require = .error refusal

/-- The sentinel marks gaps unless it is an id itself. -/
theorem Translates.marksGaps_iff
    (h : w.Translates translate require refusal (idAt? ids? ordinal)) :
    w.MarksGaps translate require refusal ids? ordinal ↔ idAt? ids? ordinal ≠ some unmapped := by
  obtain ⟨htranslate, hrequire⟩ := h
  cases hid : idAt? ids? ordinal with
  | none =>
      have hcounts : ¬ Counts ids? ordinal := idAt?_eq_none_iff.mp hid
      rw [hid] at htranslate hrequire
      have hrefused : w.told require = .error refusal := hrequire.trans (if_pos rfl)
      refine iff_of_true ⟨?_, ?_, fun _ => hrefused⟩ nofun
      · exact iff_of_true htranslate hcounts
      · simp [hrefused, hcounts]
  | some id =>
      have hcounts : Counts ids? ordinal := by
        by_contra hnot
        cases (idAt?_eq_none_iff.mpr hnot).symm.trans hid
      rw [hid, Option.getD_some] at htranslate hrequire
      constructor
      · intro hmarks heq
        rw [Option.some.inj heq] at htranslate
        exact hmarks.unmapped_iff.mp htranslate hcounts
      · intro hne
        have hid : id ≠ unmapped := fun heq => hne (congrArg some heq)
        rw [if_neg hid] at hrequire
        refine ⟨?_, ?_, fun hnot => absurd hcounts hnot⟩
        · rw [htranslate]
          simp [hid, hcounts]
        · exact iff_of_true ⟨id, hrequire⟩ hcounts

/-- The sentinel marks the gaps of all enumerations of a document. -/
structure MarksAllGaps (w : BridgeWorld) (doc : MetadataDocument) : Prop where
  tables : ∀ (token : String) (ordinal : Int32),
    w.MarksGaps (.tableToCanonical token ordinal) (.requireTable token ordinal)
      (.protocolMismatch token .table ordinal.toInt) (doc.tableIds? token) ordinal
  columns : ∀ (token : String) (table ordinal : Int32),
    w.MarksGaps (.columnToCanonical token table ordinal) (.requireColumn token table ordinal)
      (.protocolMismatch token .column ordinal.toInt) (doc.columnIds? token table) ordinal

/-- A bridge over the store made from any document, as long as the document stays as it is: every
ordinal of every version is translated to what it stands for. The sentinel marks all gaps, and
nothing else, exactly if nothing that is counted has it as its id. -/
theorem marksAllGaps_iff {doc : MetadataDocument} {store : Store} {steps : List BridgeStep}
    (hstore : Store.ofDocument doc = .ok store)
    (hstays : ∀ step ∈ steps, ∀ registry, step ≠ .registry registry) :
    let w := (new store.registry).run steps
    (∀ token ordinal, w.Translates (.tableToCanonical token ordinal)
      (.requireTable token ordinal) (.protocolMismatch token .table ordinal.toInt)
      (idAt? (doc.tableIds? token) ordinal))
    ∧ (∀ token table ordinal, w.Translates (.columnToCanonical token table ordinal)
      (.requireColumn token table ordinal) (.protocolMismatch token .column ordinal.toInt)
      (idAt? (doc.columnIds? token table) ordinal))
    ∧ (w.MarksAllGaps doc ↔
      (∀ token ordinal, idAt? (doc.tableIds? token) ordinal ≠ some unmapped)
        ∧ ∀ token table ordinal, idAt? (doc.columnIds? token table) ordinal ≠ some unmapped) := by
  intro w
  have htold {α : Type} (query : VersionQuery α) :=
    told_of_stays hstays store.registry query
  have htables (token : String) (ordinal : Int32) : w.Translates (.tableToCanonical token ordinal)
      (.requireTable token ordinal) (.protocolMismatch token .table ordinal.toInt)
      (idAt? (doc.tableIds? token) ordinal) := by
    have hon := Store.tableToCanonical_on hstore token ordinal
    exact ⟨(htold _).trans hon, (htold _).trans (VersionQuery.insist_on hon .table ordinal)⟩
  have hcolumns (token : String) (table ordinal : Int32) :
      w.Translates (.columnToCanonical token table ordinal)
        (.requireColumn token table ordinal) (.protocolMismatch token .column ordinal.toInt)
        (idAt? (doc.columnIds? token table) ordinal) := by
    have hon := Store.columnToCanonical_on hstore token table ordinal
    exact ⟨(htold _).trans hon, (htold _).trans (VersionQuery.insist_on hon .column ordinal)⟩
  refine ⟨htables, hcolumns, ?_⟩
  constructor
  · intro hmarks
    constructor
    · intro token ordinal
      exact (htables token ordinal).marksGaps_iff.mp (hmarks.tables token ordinal)
    · intro token table ordinal
      exact (hcolumns token table ordinal).marksGaps_iff.mp (hmarks.columns token table ordinal)
  · intro ⟨htable, hcolumn⟩
    constructor
    · intro token ordinal
      exact (htables token ordinal).marksGaps_iff.mpr (htable token ordinal)
    · intro token table ordinal
      exact (hcolumns token table ordinal).marksGaps_iff.mpr (hcolumn token table ordinal)

/-- Two versions of a few tables, none of which has the sentinel as its id. -/
theorem marksAllGaps_of_secondEdition :
    let doc : MetadataDocument := {
      root := ⟨1⟩
      accounts := [{ id := ⟨1⟩ }]
      protocolVersions := Catalog.twoVersions
      tables := Catalog.secondEdition }
    ∃ store, Store.ofDocument doc = .ok store
      ∧ ((new store.registry).run [.look (.requireTable "v2" 1), .reset]).MarksAllGaps doc := by
  intro doc
  cases hstore : Store.ofDocument doc with
  | error cause =>
      have haccepted : (Store.ofDocument doc).isOk = true := by decide +kernel
      rw [hstore] at haccepted
      cases haccepted
  | ok store =>
      have hspares : doc.SparesSentinel := by
        change ∀ table ∈ Catalog.secondEdition, table.id ≠ unmapped
          ∧ ∀ column ∈ table.columns, column.id ≠ unmapped
        decide +kernel
      exact ⟨store, rfl, (marksAllGaps_iff hstore (by simp)).2.2.mpr hspares.idAt?_ne⟩

/-- A document with a table that has the sentinel as its id is accepted. Its clients count the
table, and are refused when they insist on it. -/
theorem requireTable_refuses_counted :
    let doc : MetadataDocument := {
      root := ⟨1⟩
      accounts := [{ id := ⟨1⟩ }]
      protocolVersions := [⟨"v1", 10⟩]
      tables := [{ id := unmapped, name := "jobs", validity := { since := "v1" } }] }
    ∃ store, Store.ofDocument doc = .ok store ∧ Counts (doc.tableIds? "v1") 0
      ∧ (new store.registry).told (.tableToCanonical "v1" 0) = .ok unmapped
      ∧ (new store.registry).told (.requireTable "v1" 0) =
        .error (.protocolMismatch "v1" .table 0) := by
  intro doc
  cases hstore : Store.ofDocument doc with
  | error cause =>
      have haccepted : (Store.ofDocument doc).isOk = true := by decide +kernel
      rw [hstore] at haccepted
      cases haccepted
  | ok store =>
      have hids : doc.tableIds? "v1" = some [unmapped] := by decide +kernel
      have hon := Store.tableToCanonical_on hstore "v1" 0
      rw [hids] at hon
      have hstays : ∀ step ∈ ([] : List BridgeStep), ∀ registry, step ≠ .registry registry := by
        simp
      have htold {α : Type} (query : VersionQuery α) :
          (new store.registry).told query = query.on (Catalog.load store.registry) :=
        told_of_stays hstays store.registry query
      refine ⟨store, rfl, ⟨[unmapped], hids, by decide, by decide⟩, (htold _).trans hon, ?_⟩
      exact (htold _).trans (VersionQuery.insist_on hon .table 0)

end BridgeWorld

end ControlPlane
