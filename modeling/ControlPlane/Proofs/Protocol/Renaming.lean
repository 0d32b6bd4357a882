/-
# Tokens are opaque

A version is known by a token, and descriptors name versions by their tokens. Which text a token
is makes no difference: where all versions and all that name them get new tokens, and the versions
may also be listed in another order, every lookup finds what it found before, with the new tokens
in place of the old ones. The renaming has to tell different tokens apart; it need not keep the
order of their texts.

What a version counts follows from its release time alone.
-/

import ControlPlane.Proofs.Metadata.Criterion
import ControlPlane.Proofs.Protocol.Generations
import Mathlib.Logic.Equiv.Basic

namespace ControlPlane

open Std (ExtTreeMap)

variable {f : String → String}

/-! ## New tokens -/

def ProtocolVersion.rename (f : String → String) (version : ProtocolVersion) : ProtocolVersion :=
  { version with token := f version.token }

def Validity.rename (f : String → String) (validity : Validity) : Validity where
  since := f validity.since
  last := validity.last.map f

def ColumnDescriptor.rename (f : String → String) (column : ColumnDescriptor) : ColumnDescriptor :=
  { column with validity := column.validity.rename f }

def TableDescriptor.rename (f : String → String) (table : TableDescriptor) : TableDescriptor :=
  { table with
    validity := table.validity.rename f
    columns := table.columns.map (·.rename f) }

/-- The same view of a version with a new token. -/
def View.rename (f : String → String) (view : View) : View :=
  { view with version := view.version.rename f }

def MetadataCause.rename (f : String → String) : MetadataCause → MetadataCause
  | .duplicateVersion token => .duplicateVersion (f token)
  | .unknownVersion token => .unknownVersion (f token)
  | cause => cause

/-- The same fault with new tokens for the versions that it names. -/
def Fault.rename (f : String → String) : Fault → Fault
  | .protocolMismatch token kind value => .protocolMismatch (f token) kind value
  | .unknownProtocolVersion token => .unknownProtocolVersion (f token)
  | .metadata cause => .metadata (cause.rename f)
  | fault => fault

namespace BridgeLookup

def rename (f : String → String) : BridgeLookup → BridgeLookup
  | view token => view (f token)
  | tableToCanonical token ordinal => tableToCanonical (f token) ordinal
  | tableToOrdinal token table => tableToOrdinal (f token) table
  | columnToCanonical token table ordinal => columnToCanonical (f token) table ordinal
  | columnToOrdinal token table column => columnToOrdinal (f token) table column
  | requireTable token ordinal => requireTable (f token) ordinal
  | requireColumn token table ordinal => requireColumn (f token) table ordinal
  | tableName table => tableName table

end BridgeLookup

/-- Ordinals, ids and names of tables are no tokens. -/
def BridgeFinding.rename (f : String → String) : BridgeFinding → BridgeFinding
  | view v => view (v.rename f)
  | finding => finding

theorem mapError_bind {α β ε ε' : Type} (g : ε → ε') (first : Except ε α)
    (next : α → Except ε β) :
    (first >>= next).mapError g = first.mapError g >>= fun value => (next value).mapError g := by
  cases first <;> rfl

/-- What comes of a question after the renaming, by what came of it before. -/
def renameOutcome {α : Type} (f : String → String) (rename : α → α) (result : Except Fault α) :
    Except Fault α :=
  (result.map rename).mapError (·.rename f)

/-! ## Release times -/

namespace ReleaseIndex

variable {versions versions' : List ProtocolVersion} {index index' : ReleaseIndex}

theorem releasedMs?_eq_some_iff (h : ofVersions versions = .ok index) {token : String}
    {ms : UInt64} :
    index.releasedMs? token = some ms ↔
      ∃ version ∈ versions, version.token = token ∧ version.releasedMs = ms := by
  have hindexes := (indexes_of_ofVersions h).2
  constructor
  · intro hreleased
    obtain ⟨version, hversion, rfl⟩ :=
      List.mem_map.mp (mem_tokens_of_releasedMs? h (by rw [hreleased]; rfl))
    exact ⟨version, hversion, rfl,
      Option.some.inj ((hindexes version hversion).symm.trans hreleased)⟩
  · rintro ⟨version, hversion, rfl, rfl⟩
    exact hindexes version hversion

/-- Renamed versions are known, under their new tokens, to the same release times. -/
theorem releasedMs?_rename (hinj : Function.Injective f)
    (hperm : versions'.Perm (versions.map (·.rename f))) (h : ofVersions versions = .ok index)
    (h' : ofVersions versions' = .ok index') (token : String) :
    index'.releasedMs? (f token) = index.releasedMs? token := by
  apply Option.ext
  intro ms
  rw [releasedMs?_eq_some_iff h', releasedMs?_eq_some_iff h]
  constructor
  · rintro ⟨renamed, hmem, htoken, rfl⟩
    obtain ⟨version, hversion, rfl⟩ := List.mem_map.mp (hperm.mem_iff.mp hmem)
    exact ⟨version, hversion, hinj htoken, rfl⟩
  · rintro ⟨version, hversion, rfl, rfl⟩
    exact ⟨version.rename f, hperm.mem_iff.mpr (List.mem_map_of_mem hversion), rfl, rfl⟩

/-- An index of renamed versions answers for renamed tokens as the old one did. -/
def Renames (f : String → String) (index index' : ReleaseIndex) : Prop :=
  ∀ token, index'.releasedMs? (f token) = index.releasedMs? token

namespace Renames

variable (h : index.Renames f index')
include h

theorem resolve (token : String) :
    index'.resolve (f token) = (index.resolve token).mapError (·.rename f) := by
  rw [ReleaseIndex.resolve, ReleaseIndex.resolve, h token]
  cases index.releasedMs? token <;> rfl

theorem covers (validity : Validity) (atMs : UInt64) :
    index'.covers (validity.rename f) atMs =
      (index.covers validity atMs).mapError (·.rename f) := by
  have hsince : index'.resolve (validity.rename f).since = _ := h.resolve validity.since
  rw [ReleaseIndex.covers, ReleaseIndex.covers, mapError_bind, hsince]
  congr 1
  funext since
  split
  · rfl
  · cases hlast : validity.last with
    | none =>
        have hlast' : (validity.rename f).last = none := congrArg (Option.map f) hlast
        rw [hlast']
        rfl
    | some last =>
        have hlast' : (validity.rename f).last = some (f last) := congrArg (Option.map f) hlast
        simp only [hlast', mapError_bind, h.resolve last]
        rfl

theorem columnsAt (atMs : UInt64) (columns : List ColumnDescriptor) :
    Catalog.columnsAt index' atMs (columns.map (·.rename f)) =
      (Catalog.columnsAt index atMs columns).mapError (·.rename f) := by
  induction columns with
  | nil => rfl
  | cons column rest ih =>
      have hcovers : index'.covers (column.rename f).validity atMs = _ :=
        h.covers column.validity atMs
      rw [List.map_cons, Catalog.columnsAt, Catalog.columnsAt, hcovers, ih]
      simp only [mapError_bind]
      rfl

theorem tablesAt (atMs : UInt64) (tables : List TableDescriptor) :
    Catalog.tablesAt index' atMs (tables.map (·.rename f)) =
      (Catalog.tablesAt index atMs tables).mapError (·.rename f) := by
  induction tables with
  | nil => rfl
  | cons table rest ih =>
      have hcovers : index'.covers (table.rename f).validity atMs = _ :=
        h.covers table.validity atMs
      have hcolumns : Catalog.columnsAt index' atMs (table.rename f).columns = _ :=
        h.columnsAt atMs table.columns
      rw [List.map_cons, Catalog.tablesAt, Catalog.tablesAt, hcovers, hcolumns, ih]
      simp only [mapError_bind]
      congr 1
      funext covered
      cases covered
      · rfl
      · simp only [if_true, mapError_bind]
        rfl

end Renames

end ReleaseIndex

/-! ## Catalogs -/

namespace Catalog

variable {versions versions' : List ProtocolVersion} {tables : List TableDescriptor}
  {catalog catalog' : Catalog}

/-- A catalog of the renamed registry. -/
structure Renames (f : String → String) (catalog catalog' : Catalog) : Prop where
  index : catalog.index.Renames f catalog'.index
  versions : ∀ token : String,
    catalog'.versions[f token]? = catalog.versions[token]?.map (·.rename f)
  tables : catalog'.tables = catalog.tables.map (·.rename f)

theorem versions_eq_some_iff (hload : load ⟨.ok versions, .ok tables⟩ = .ok catalog)
    {token : String} {version : ProtocolVersion} :
    catalog.versions[token]? = some version ↔ version ∈ versions ∧ version.token = token := by
  constructor
  · intro hfind
    rw [versions_of_load hload rfl] at hfind
    exact ⟨List.mem_of_find?_eq_some hfind, by simpa using List.find?_some hfind⟩
  · rintro ⟨hversion, rfl⟩
    exact (holds_of_load hload rfl rfl).find_version version hversion

/-- Renamed versions, in whatever order, have a catalog with the renamed tables. -/
theorem exists_load_rename (hload : load ⟨.ok versions, .ok tables⟩ = .ok catalog)
    (hinj : Function.Injective f) (hperm : versions'.Perm (versions.map (·.rename f))) :
    ∃ catalog', load ⟨.ok versions', .ok (tables.map (·.rename f))⟩ = .ok catalog' := by
  obtain ⟨_, index, _, ⟨⟩, hindex, ⟨⟩, hnodup, hcolumns, -⟩ := load_eq_ok_iff.mp hload
  have htokens : (versions'.map (·.token)).Nodup := by
    have hrenamed : (versions.map (·.rename f)).map (·.token) =
        (versions.map (·.token)).map f := by
      rw [List.map_map, List.map_map]
      rfl
    rw [(hperm.map _).nodup_iff, hrenamed]
    exact (ReleaseIndex.indexes_of_ofVersions hindex).1.map hinj
  obtain ⟨index', hindex'⟩ := ReleaseIndex.exists_ofVersions_iff.mpr htokens
  refine ⟨_, load_eq_ok_iff.mpr ⟨_, index', _, rfl, hindex', rfl, ?_, ?_, rfl⟩⟩
  · -- the ids are those of the old tables
    rw [List.map_map]
    exact hnodup
  · intro renamed hrenamed
    obtain ⟨table, htable, rfl⟩ := List.mem_map.mp hrenamed
    have hids : (table.rename f).columns.map (·.id) = table.columns.map (·.id) :=
      List.map_map
    rw [hids]
    exact hcolumns table htable

theorem renames_of_load (hinj : Function.Injective f)
    (hperm : versions'.Perm (versions.map (·.rename f)))
    (hload : load ⟨.ok versions, .ok tables⟩ = .ok catalog)
    (hload' : load ⟨.ok versions', .ok (tables.map (·.rename f))⟩ = .ok catalog') :
    catalog.Renames f catalog' where
  index := ReleaseIndex.releasedMs?_rename hinj hperm (ofVersions_of_load hload rfl)
    (ofVersions_of_load hload' rfl)
  versions token := by
    apply Option.ext
    intro renamed
    simp only [Option.map_eq_some_iff, versions_eq_some_iff hload, versions_eq_some_iff hload',
      hperm.mem_iff, List.mem_map]
    constructor
    · rintro ⟨⟨version, hversion, rfl⟩, htoken⟩
      exact ⟨version, ⟨hversion, hinj htoken⟩, rfl⟩
    · rintro ⟨version, ⟨hversion, rfl⟩, rfl⟩
      exact ⟨⟨version, hversion, rfl⟩, rfl⟩
  tables := by
    rw [(holds_of_load hload rfl rfl).tables_eq, (holds_of_load hload' rfl rfl).tables_eq]

namespace Renames

variable (h : catalog.Renames f catalog')
include h

theorem buildView (version : ProtocolVersion) :
    catalog'.buildView (version.rename f) =
      renameOutcome f (·.rename f) (catalog.buildView version) := by
  have htables : Catalog.tablesAt catalog'.index (version.rename f).releasedMs
      (catalog.tables.map (·.rename f)) = _ := h.index.tablesAt version.releasedMs catalog.tables
  rw [Catalog.buildView, Catalog.buildView, h.tables, htables]
  cases Catalog.tablesAt catalog.index version.releasedMs catalog.tables <;> rfl

/-- A version is seen under its new token as it was under the old one. -/
theorem view (token : String) :
    catalog'.view (f token) = renameOutcome f (·.rename f) (catalog.view token) := by
  rw [Catalog.view, Catalog.view, h.versions token]
  cases catalog.versions[token]? with
  | none => rfl
  | some version => exact h.buildView version

theorem tableName? (table : Int32) : catalog'.tableName? table = catalog.tableName? table := by
  rw [Catalog.tableName?, Catalog.tableName?, h.tables, List.find?_map, Option.map_map]
  rfl

end Renames

end Catalog

/-! ## Lookups -/

namespace VersionQuery

variable {α β : Type}

/-- Asked of renamed views, the second question has the renamed answers of the first. -/
structure Renames (f : String → String) (rename : α → α) (query query' : VersionQuery α) :
    Prop where
  version : query'.version = f query.version
  answer : ∀ view : Except Fault View,
    query'.answer (renameOutcome f (·.rename f) view) = renameOutcome f rename (query.answer view)

theorem renames_whole (token : String) :
    (whole token).Renames f (·.rename f) (whole (f token)) where
  version := rfl
  answer _ := rfl

/-- What does not depend on the token in a view is read off at either. -/
theorem renames_readOff {read : View → Int32} (hread : ∀ view, read (view.rename f) = read view)
    (token : String) : (readOff token read).Renames f id (readOff (f token) read) where
  version := rfl
  answer view := by
    cases view with
    | ok view => exact congrArg Except.ok (hread view)
    | error fault => cases fault <;> rfl

theorem Renames.insist {query query' : VersionQuery Int32} (h : query.Renames f id query')
    (kind : OrdinalKind) (ordinal : Int32) :
    (query.insist kind ordinal).Renames f id (query'.insist kind ordinal) where
  version := h.version
  answer view := by
    simp only [VersionQuery.insist, h.answer view, h.version]
    cases query.answer view with
    | error fault => rfl
    | ok found =>
        simp only [renameOutcome, Except.map, Except.mapError, id_eq]
        split <;> rfl

theorem Renames.map {rename : α → α} {rename' : β → β} {query query' : VersionQuery α}
    (h : query.Renames f rename query') {make : α → β}
    (hmake : ∀ value, make (rename value) = rename' (make value)) :
    (query.map make).Renames f rename' (query'.map make) where
  version := h.version
  answer view := by
    simp only [VersionQuery.map, h.answer view]
    cases query.answer view with
    | error fault => rfl
    | ok value => exact congrArg Except.ok (hmake value)

theorem Renames.on {rename : α → α} {query query' : VersionQuery α}
    (h : query.Renames f rename query') {catalog catalog' : Catalog}
    (hcatalog : catalog.Renames f catalog') :
    query'.on (.ok catalog') = renameOutcome f rename (query.on (.ok catalog)) := by
  have hview := hcatalog.view query.version
  rw [← h.version] at hview
  change query'.answer (catalog'.view query'.version) = _
  rw [hview]
  exact h.answer _

end VersionQuery

/-- A lookup with the new token finds what the lookup with the old one finds, renamed. -/
theorem BridgeLookup.on_rename {catalog catalog' : Catalog} (h : catalog.Renames f catalog')
    (lookup : BridgeLookup) :
    (lookup.rename f).on (.ok catalog') =
      renameOutcome f (·.rename f) (lookup.on (.ok catalog)) := by
  have hnumber (value : Int32) :
      BridgeFinding.number (id value) = (BridgeFinding.number value).rename f := rfl
  -- every case but the last is a question about a version
  cases lookup with
  | view token =>
      have hview (view : View) :
          BridgeFinding.view (view.rename f) = (BridgeFinding.view view).rename f := rfl
      exact ((VersionQuery.renames_whole token).map hview).on h
  | tableToCanonical token ordinal =>
      exact ((VersionQuery.renames_readOff (fun _ => rfl) token).map hnumber).on h
  | tableToOrdinal token table =>
      exact ((VersionQuery.renames_readOff (fun _ => rfl) token).map hnumber).on h
  | columnToCanonical token table ordinal =>
      exact ((VersionQuery.renames_readOff (fun _ => rfl) token).map hnumber).on h
  | columnToOrdinal token table column =>
      exact ((VersionQuery.renames_readOff (fun _ => rfl) token).map hnumber).on h
  | requireTable token ordinal =>
      have hfind : (VersionQuery.tableToCanonical token ordinal).Renames f id
          (VersionQuery.tableToCanonical (f token) ordinal) :=
        VersionQuery.renames_readOff (fun _ => rfl) token
      exact ((hfind.insist .table ordinal).map hnumber).on h
  | requireColumn token table ordinal =>
      have hfind : (VersionQuery.columnToCanonical token table ordinal).Renames f id
          (VersionQuery.columnToCanonical (f token) table ordinal) :=
        VersionQuery.renames_readOff (fun _ => rfl) token
      exact ((hfind.insist .column ordinal).map hnumber).on h
  | tableName table => exact congrArg (Except.ok ∘ BridgeFinding.name) (h.tableName? table)

/-! ## Opaque tokens -/

/-- What a view counts, without the version that sees it. -/
def View.counts (view : View) : Enumeration × ExtTreeMap Int32 Enumeration :=
  (view.tables, view.columns)

namespace Catalog

variable {versions versions' : List ProtocolVersion} {tables : List TableDescriptor}
  {catalog : Catalog}

/-- Versions that were released at the same time count the same. -/
theorem counts_eq_of_releasedMs_eq {version other : ProtocolVersion}
    (h : version.releasedMs = other.releasedMs) :
    (catalog.buildView version).map View.counts = (catalog.buildView other).map View.counts := by
  rw [Catalog.buildView, Catalog.buildView, h]
  cases Catalog.tablesAt catalog.index other.releasedMs catalog.tables <;> rfl

/-- Nothing but the names of versions changes where all tokens are renamed and the versions are
listed in another order: the registry still has a catalog, each version counts the same tables
and the same columns, and every lookup at a bridge finds the same. Versions that were released at
the same time count the same in any case. -/
theorem tokens_opaque (hload : load ⟨.ok versions, .ok tables⟩ = .ok catalog)
    (hinj : Function.Injective f) (hperm : versions'.Perm (versions.map (·.rename f))) :
    let registry : Registry := ⟨.ok versions, .ok tables⟩
    let registry' : Registry := ⟨.ok versions', .ok (tables.map (·.rename f))⟩
    (∃ catalog', load registry' = .ok catalog'
      ∧ (∀ version ∈ versions, (catalog'.view (version.rename f).token).map View.counts =
          ((catalog.view version.token).map View.counts).mapError (·.rename f))
      ∧ ∀ bridge bridge' : Bridge,
        bridge.Agrees (.ok catalog) → bridge'.Agrees (.ok catalog') → ∀ lookup,
          (bridge'.lookUp registry' (lookup.rename f)).1 =
            renameOutcome f (·.rename f) (bridge.lookUp registry lookup).1)
    ∧ ∀ version ∈ versions, ∀ other ∈ versions, version.releasedMs = other.releasedMs →
      (catalog.view version.token).map View.counts =
        (catalog.view other.token).map View.counts := by
  intro registry registry'
  obtain ⟨catalog', hload'⟩ := exists_load_rename hload hinj hperm
  have hrenames := renames_of_load hinj hperm hload hload'
  refine ⟨⟨catalog', hload', ?_, ?_⟩, ?_⟩
  · intro version _
    have hview : catalog'.view (version.rename f).token = _ := hrenames.view version.token
    rw [hview]
    cases catalog.view version.token <;> rfl
  · intro bridge bridge' hagrees hagrees' lookup
    rw [← hload] at hagrees
    rw [← hload'] at hagrees'
    rw [hagrees.gives.lookUp_fst, hagrees'.gives.lookUp_fst, hload, hload']
    exact lookup.on_rename hrenames
  · intro version hversion other hother hreleased
    have hholds := holds_of_load hload rfl rfl
    rw [Catalog.view, Catalog.view, hholds.find_version version hversion,
      hholds.find_version other hother]
    exact counts_eq_of_releasedMs_eq hreleased

/-- Tokens that trade places, and a third version released with the second. -/
theorem tokens_opaque_of_swap :
    let registry : Registry := ⟨.ok (⟨"v3", 20⟩ :: twoVersions), .ok secondEdition⟩
    let registry' : Registry :=
      ⟨.ok [⟨"v1", 20⟩, ⟨"v3", 20⟩, ⟨"v2", 10⟩],
        .ok (secondEdition.map (·.rename (Equiv.swap "v1" "v2")))⟩
    ∃ catalog, load registry = .ok catalog
      ∧ (({} : Bridge).lookUp registry (.tableToCanonical "v2" 1)).1 = .ok (.number 7)
      ∧ (({} : Bridge).lookUp registry' (.tableToCanonical "v1" 1)).1 = .ok (.number 7)
      ∧ (catalog.view "v2").map View.counts = (catalog.view "v3").map View.counts := by
  intro registry registry'
  have hloads : (load registry).isOk = true := by decide +kernel
  cases hload : load registry with
  | error fault => rw [hload] at hloads; cases hloads
  | ok catalog =>
      have hperm : ([⟨"v1", 20⟩, ⟨"v3", 20⟩, ⟨"v2", 10⟩] : List ProtocolVersion).Perm
          ((⟨"v3", 20⟩ :: twoVersions).map (·.rename (Equiv.swap "v1" "v2"))) := by
        decide +kernel
      obtain ⟨⟨catalog', hload', -, hlookups⟩, hsame⟩ :=
        tokens_opaque hload (Equiv.injective _) hperm
      have hempty (reading : Except Fault Catalog) : ({} : Bridge).Agrees reading :=
        Bridge.isEmpty_new.agrees reading
      have hfound :
          (({} : Bridge).lookUp registry (.tableToCanonical "v2" 1)).1 = .ok (.number 7) := by
        have hgives : ({} : Bridge).Gives registry (load registry) := (hempty _).gives
        rw [hgives.lookUp_fst]
        decide +kernel
      refine ⟨catalog, rfl, hfound, ?_, ?_⟩
      · refine (hlookups {} {} (hempty _) (hempty _) (.tableToCanonical "v2" 1)).trans ?_
        rw [hfound]
        rfl
      · exact hsame ⟨"v2", 20⟩ (by decide) ⟨"v3", 20⟩ (by decide) rfl

end Catalog

end ControlPlane
