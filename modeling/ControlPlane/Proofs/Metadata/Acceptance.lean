/-
# What an accepted document says

A document that is accepted declares each version, table and column once, and its descriptors
name no version that it does not declare. A bridge asks for no more than that: the store made
from the document has a catalog, and in it every version has its view.
-/

import ControlPlane.Metadata.Store
import ControlPlane.Proofs.Protocol.Loading

namespace ControlPlane

open Std (ExtTreeMap)

/-! ## Checks that succeed -/

section

variable {α β ε ε' : Type}

/-- Two computations in a row succeed if both of them do. -/
theorem bind_eq_ok_iff {first : Except ε α} {next : α → Except ε β} {result : β} :
    first >>= next = .ok result ↔ ∃ value, first = .ok value ∧ next value = .ok result := by
  cases first <;> simp [bind, Except.bind]

/-- A computation after a check succeeds if both of them do. -/
theorem check_bind_eq_ok_iff {check : Except ε Unit} {next : Unit → Except ε β} {result : β} :
    check >>= next = .ok result ↔ check = .ok () ∧ next () = .ok result := by
  rw [bind_eq_ok_iff]
  exact Unique.exists_iff

theorem mapError_eq_ok_iff {f : ε → ε'} {result : Except ε α} {value : α} :
    result.mapError f = .ok value ↔ result = .ok value := by
  cases result <;> simp [Except.mapError]

/-- A check of a whole list is a check of each of its items. -/
theorem forM_eq_ok_iff {check : α → Except ε PUnit} {items : List α} :
    items.forM check = .ok () ↔ ∀ item ∈ items, check item = .ok () := by
  induction items with
  | nil => exact iff_of_true rfl fun _ hmem => absurd hmem List.not_mem_nil
  | cons item rest ih =>
      change (check item >>= fun _ => rest.forM check) = .ok () ↔ _
      rw [check_bind_eq_ok_iff, ih, List.forall_mem_cons]

/-- What is read off a list is what is read off its items. -/
theorem mem_iff_of_mapM_eq_ok {read : α → Except ε β} {items : List α} {values : List β}
    (h : items.mapM read = .ok values) {value : β} :
    value ∈ values ↔ ∃ item ∈ items, read item = .ok value := by
  induction items generalizing values with
  | nil =>
      cases h
      simp
  | cons item rest ih =>
      simp only [List.mapM_cons, bind_eq_ok_iff] at h
      obtain ⟨first, hfirst, others, hothers, hvalues⟩ := h
      obtain rfl : first :: others = values := Except.ok.inj hvalues
      rw [List.mem_cons, ih hothers, eq_comm]
      simp only [List.mem_cons, exists_eq_or_imp, hfirst, Except.ok.injEq]

theorem refuse_eq_ok_iff {offence : Option α} {cause : α → ε} :
    refuse offence cause = .ok () ↔ offence = none := by
  cases offence <;> simp [refuse]

end

namespace MetadataDocument

variable {doc : MetadataDocument} {index : ReleaseIndex}

/-! ## Descriptors -/

section

variable (hindex : ReleaseIndex.ofVersions doc.protocolVersions = .ok index)
include hindex

theorem checkValidity_eq_ok_iff {descriptor : Described} {validity : Validity} :
    checkValidity index descriptor validity = .ok () ↔ validity.IsKnown doc.protocolVersions := by
  -- a token is missing from the index exactly if it is none of the versions'
  have hindexed (token : String) :
      (index.releasedMs? token).isNone = false ↔ token ∈ doc.protocolVersions.map (·.token) := by
    rw [← Option.not_isSome, Bool.not_eq_false']
    constructor
    · exact ReleaseIndex.mem_tokens_of_releasedMs? hindex
    · intro hknown
      obtain ⟨version, hversion, rfl⟩ := List.mem_map.mp hknown
      rw [(ReleaseIndex.indexes_of_ofVersions hindex).2 version hversion]
      rfl
  rw [checkValidity, refuse_eq_ok_iff, List.find?_eq_none]
  simp only [Bool.not_eq_true, hindexed, Validity.tokens, List.forall_mem_cons, Option.mem_toList]
  rfl

/-- Columns pass among ids that were seen before if they have ids of their own. -/
theorem checkColumns_eq_ok_iff {tableName : String} {seen : List Int32}
    {columns : List ColumnDescriptor} :
    checkColumns index tableName seen columns = .ok () ↔
      ((columns.map (·.id)).Nodup ∧ ∀ id ∈ columns.map (·.id), id ∉ seen)
        ∧ ∀ column ∈ columns, column.validity.IsKnown doc.protocolVersions := by
  induction columns generalizing seen with
  | nil => simp [checkColumns]
  | cons column rest ih =>
      rw [checkColumns]
      split
      · next hseen =>
        constructor
        · intro h
          cases h
        · rintro ⟨⟨-, hfresh⟩, -⟩
          exact absurd hseen (hfresh _ List.mem_cons_self)
      · next hunseen =>
        simp only [check_bind_eq_ok_iff, checkValidity_eq_ok_iff hindex, ih,
          unseen_cons_iff hunseen, List.forall_mem_cons, List.map_cons]
        exact and_left_comm

/-- Tables pass in the same way, each with its own columns. -/
theorem checkTables_eq_ok_iff {seen : List Int32} {tables : List TableDescriptor} :
    checkTables index seen tables = .ok () ↔
      ((tables.map (·.id)).Nodup ∧ ∀ id ∈ tables.map (·.id), id ∉ seen)
        ∧ ∀ table ∈ tables, (table.columns.map (·.id)).Nodup
          ∧ table.IsKnown doc.protocolVersions := by
  induction tables generalizing seen with
  | nil => simp [checkTables]
  | cons table rest ih =>
      rw [checkTables]
      split
      · next hseen =>
        constructor
        · intro h
          cases h
        · rintro ⟨⟨-, hfresh⟩, -⟩
          exact absurd hseen (hfresh _ List.mem_cons_self)
      · next hunseen =>
        simp only [check_bind_eq_ok_iff, checkValidity_eq_ok_iff hindex,
          checkColumns_eq_ok_iff hindex, ih, unseen_cons_iff hunseen, List.forall_mem_cons,
          List.map_cons, List.not_mem_nil, not_false_eq_true, implies_true, and_true]
        constructor
        · rintro ⟨hvalidity, ⟨hnodup, hcolumns⟩, hids, hothers⟩
          exact ⟨hids, ⟨hnodup, hvalidity, hcolumns⟩, hothers⟩
        · rintro ⟨hids, ⟨hnodup, hvalidity, hcolumns⟩, hothers⟩
          exact ⟨hvalidity, ⟨hnodup, hcolumns⟩, hids, hothers⟩

end

/-! ## Documents -/

/-- What an accepted document says of versions and tables. -/
theorem of_validate (h : doc.validate = .ok ()) :
    ∃ index, ReleaseIndex.ofVersions doc.protocolVersions = .ok index
      ∧ (doc.tables.map (·.id)).Nodup
      ∧ ∀ table ∈ doc.tables, (table.columns.map (·.id)).Nodup
        ∧ table.IsKnown doc.protocolVersions := by
  simp only [validate, bind_eq_ok_iff, mapError_eq_ok_iff] at h
  obtain ⟨_, -, _, -, _, -, index, hindex, _, htables, -⟩ := h
  obtain ⟨⟨hnodup, -⟩, hknown⟩ := (checkTables_eq_ok_iff hindex).mp htables
  exact ⟨index, hindex, hnodup, hknown⟩

end MetadataDocument

namespace Store

variable {doc : MetadataDocument} {store : Store}

/-- A document that becomes a store is accepted, and its descriptors are what the store says. -/
theorem of_ofDocument (h : ofDocument doc = .ok store) :
    doc.validate = .ok () ∧ store.registry = ⟨.ok doc.protocolVersions, .ok doc.tables⟩ := by
  simp only [ofDocument, bind_eq_ok_iff] at h
  obtain ⟨_, hvalidate, rules, -, h⟩ := h
  obtain rfl := Except.ok.inj h
  exact ⟨hvalidate, rfl⟩

/-- The store made from a document has a catalog. -/
theorem load_of_ofDocument (h : ofDocument doc = .ok store) :
    ∃ catalog, Catalog.load store.registry = .ok catalog := by
  obtain ⟨hvalidate, hregistry⟩ := of_ofDocument h
  obtain ⟨index, hindex, hnodup, htables⟩ := MetadataDocument.of_validate hvalidate
  rw [hregistry]
  exact ⟨_, Catalog.load_eq_ok_iff.mpr ⟨_, index, _, rfl, hindex, rfl, hnodup,
    fun table htable => (htables table htable).1, rfl⟩⟩

/-- In the catalog of the store made from a document each version has its view. -/
theorem view_of_ofDocument (h : ofDocument doc = .ok store) (token : String) :
    (Catalog.load store.registry >>= (·.view token)) =
      match doc.protocolVersions.find? (·.token == token) with
      | none => .error (.unknownProtocolVersion token)
      | some version =>
          let visible := visibleTables doc.protocolVersions version.releasedMs doc.tables
          .ok {
            version
            tables := ⟨visible.map (·.id)⟩
            columns := ExtTreeMap.ofList (visible.map fun table =>
              (table.id, Enumeration.mk
                (visibleIds doc.protocolVersions version.releasedMs table.columns))) } := by
  obtain ⟨catalog, hload⟩ := load_of_ofDocument h
  obtain ⟨hvalidate, hregistry⟩ := of_ofDocument h
  obtain ⟨-, -, -, htables⟩ := MetadataDocument.of_validate hvalidate
  rw [hload]
  change catalog.view token = _
  rw [hregistry] at hload
  cases hfind : doc.protocolVersions.find? (·.token == token) with
  | none => rw [Catalog.view, Catalog.versions_of_load hload rfl, hfind]
  | some version =>
      obtain rfl : version.token = token := by simpa using List.find?_some hfind
      exact (Catalog.holds_of_load hload rfl rfl).view_eq
        (fun table htable => (htables table htable).2) (List.mem_of_find?_eq_some hfind)

end Store

end ControlPlane
