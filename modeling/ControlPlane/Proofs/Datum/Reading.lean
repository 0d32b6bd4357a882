/-
# Reading what was written

Data are alike if they differ only in the order in which records list their fields. A decoder reads
what an encoder writes if it gives the value back from every datum that is alike, in either
notation. This is shown here for the parts that records are made of, and for the ways in which a
record may read a field: as one that must be there, as one with a fallback, or as a tag that says
how to read the rest.
-/

import ControlPlane.Datum.Decode
import Mathlib.Data.List.Forall2

namespace ControlPlane

open Std (ExtTreeSet)

/-! ## Data that are alike -/

/-- The same datum but for the order of fields: each name has a value like the one it had. -/
inductive Datum.Alike : Datum → Datum → Prop
  | refl (datum : Datum) : Alike datum datum
  | list {items items' : List Datum} (h : List.Forall₂ Alike items items') :
      Alike (.list items) (.list items')
  | record {fields fields' : List (String × Datum)}
      (h : ∀ name : String, Option.Rel Alike (fields.lookup name) (fields'.lookup name)) :
      Alike (.record fields) (.record fields')

namespace Datum.Alike

variable {datum : Datum} {items : List Datum} {fields : List (String × Datum)}

theorem eq_null (h : datum.Alike .null) : datum = .null := by
  cases h
  rfl

theorem exists_items (h : (Datum.list items).Alike datum) :
    ∃ items', datum = .list items' ∧ List.Forall₂ Alike items items' := by
  cases h with
  | refl => exact ⟨items, rfl, List.forall₂_same.mpr fun item _ => .refl item⟩
  | list h => exact ⟨_, rfl, h⟩

end Datum.Alike

/-- The fields of a record have, for each name, a value like the one that was written. -/
def Fields.Show (record : Fields) (fields : List (String × Datum)) : Prop :=
  ∀ name : String, Option.Rel Datum.Alike (fields.lookup name) (record.get? name)

/-- A datum like a record is a record that shows its fields. -/
theorem Datum.Alike.exists_fields {fields : List (String × Datum)} {datum : Datum}
    (h : (Datum.record fields).Alike datum) (format : Format) :
    ∃ record : Fields, record.format = format ∧ datum = .record record.fields
      ∧ record.Show fields := by
  cases h with
  | refl =>
      refine ⟨⟨format, fields⟩, rfl, rfl, fun name => ?_⟩
      change Option.Rel Alike (fields.lookup name) (fields.lookup name)
      cases fields.lookup name with
      | none => exact .none
      | some value => exact .some (.refl value)
  | record h => exact ⟨⟨format, _⟩, rfl, rfl, h⟩

/-- The record of some fields is read as these fields. -/
theorem Fields.ofDatum?_record (declared : List String) (record : Fields) :
    Fields.ofDatum? declared record.format (.record record.fields) = some record := rfl

theorem Fields.ofRecord?_record (record : Fields) :
    Fields.ofRecord? record.format (.record record.fields) = some record := rfl

/-! ## Plain data -/

/-- A datum without fractions whose whole numbers fit a word of 64 bits, signed or not, whose
records have no name twice, and whose lists and records stand within one another no deeper than
this. -/
inductive Datum.IsPlain : Nat → Datum → Prop
  | null {depth : Nat} : IsPlain depth .null
  | bool {depth : Nat} (value : Bool) : IsPlain depth (.bool value)
  | int {depth : Nat} {value : Int}
      (hfits : -0x8000000000000000 ≤ value ∧ value < 0x10000000000000000) :
      IsPlain depth (.int value)
  | text {depth : Nat} (value : String) : IsPlain depth (.text value)
  | list {depth : Nat} {items : List Datum} (hitems : ∀ item ∈ items, IsPlain depth item) :
      IsPlain (depth + 1) (.list items)
  | record {depth : Nat} {fields : List (String × Datum)} (hnames : (fields.map (·.1)).Nodup)
      (hfields : ∀ field ∈ fields, IsPlain depth field.2) : IsPlain (depth + 1) (.record fields)

theorem lookup_eq_some_iff_of_nodup {α : Type} {fields : List (String × α)}
    (hnames : (fields.map (·.1)).Nodup) {name : String} {value : α} :
    fields.lookup name = some value ↔ (name, value) ∈ fields := by
  induction fields with
  | nil => simp
  | cons field rest ih =>
      obtain ⟨hfresh, hnames⟩ := List.nodup_cons.mp hnames
      rw [List.lookup_cons, List.mem_cons]
      by_cases hname : name = field.1
      · subst hname
        simp only [beq_self_eq_true, Option.some.injEq]
        constructor
        · rintro rfl
          exact .inl rfl
        · rintro (hfield | hmem)
          · exact congrArg Prod.snd hfield.symm
          · exact absurd (List.mem_map_of_mem (f := Prod.fst) hmem) hfresh
      · simp only [beq_eq_false_iff_ne.mpr hname, ih hnames]
        constructor
        · exact .inr
        · rintro (hfield | hmem)
          · exact absurd (congrArg Prod.fst hfield) hname
          · exact hmem

theorem lookup_perm {α : Type} {fields fields' : List (String × α)} (hperm : fields.Perm fields')
    (hnames : (fields.map (·.1)).Nodup) (name : String) :
    fields'.lookup name = fields.lookup name := by
  have hnames' : (fields'.map (·.1)).Nodup := (hperm.map _).nodup_iff.mp hnames
  apply Option.ext
  intro value
  rw [lookup_eq_some_iff_of_nodup hnames', lookup_eq_some_iff_of_nodup hnames, hperm.mem_iff]

theorem Datum.lookup_sortEach (fields : List (String × Datum)) (name : String) :
    (sortEach fields).lookup name = (fields.lookup name).map (·.sortFields) := by
  induction fields with
  | nil => rfl
  | cons field rest ih =>
      rw [sortEach, List.lookup_cons, List.lookup_cons, ih]
      cases name == field.1 <;> rfl

theorem Datum.names_sortEach (fields : List (String × Datum)) :
    (sortEach fields).map (·.1) = fields.map (·.1) := by
  induction fields with
  | nil => rfl
  | cons field rest ih => rw [sortEach, List.map_cons, List.map_cons, ih]

/-- Fields in the order of their names have the same values as before. -/
theorem Datum.IsPlain.alike_sortFields {depth : Nat} {datum : Datum} (h : datum.IsPlain depth) :
    datum.Alike datum.sortFields := by
  induction h with
  | null => exact .refl _
  | bool value => exact .refl _
  | int hfits => exact .refl _
  | text value => exact .refl _
  | @list _ items hitems ih =>
      rw [sortFields]
      refine .list ?_
      clear hitems
      induction items with
      | nil => exact .nil
      | cons item rest ihRest =>
          obtain ⟨hitem, hrest⟩ := List.forall_mem_cons.mp ih
          exact .cons hitem (ihRest hrest)
  | @record _ fields hnames hfields ih =>
      rw [sortFields]
      refine .record fun name => ?_
      have hsorted : ((sortEach fields).mergeSort fun a b => (compare a.1 b.1).isLE).lookup name =
          (fields.lookup name).map (·.sortFields) := by
        rw [← lookup_sortEach]
        apply lookup_perm (List.mergeSort_perm _ _).symm
        rw [names_sortEach]
        exact hnames
      rw [hsorted]
      cases hvalue : fields.lookup name with
      | none => exact .none
      | some value => exact .some (ih _ ((lookup_eq_some_iff_of_nodup hnames).mp hvalue))

/-! ## Decoders -/

/-- A decoder gives back what an encoder wrote. -/
def Decoder.Reads {α : Type} (decode : Decoder α) (encode : α → Datum) : Prop :=
  ∀ (format : Format) (value : α) (datum : Datum),
    (encode value).Alike datum → decode format datum = some value

namespace Decoder

variable {α : Type}

theorem reads_text : text.Reads .text := by
  intro format value datum h
  cases h
  rfl

theorem reads_bool : bool.Reads .bool := by
  intro format value datum h
  cases h
  rfl

theorem reads_word : word.Reads .ofWord := by
  intro format value datum h
  obtain rfl : Datum.ofWord value = datum := by
    cases h
    rfl
  have hfits : 0 ≤ (value.toNat : Int) ∧ (value.toNat : Int) < UInt64.size :=
    ⟨Int.natCast_nonneg _, Int.ofNat_lt.mpr value.toNat_lt⟩
  rw [Datum.ofWord, word, uint64OfInt?, if_pos hfits, Int.toNat_natCast, UInt64.ofNat_toNat]

theorem reads_int32 : int32.Reads .ofInt32 := by
  intro format value datum h
  obtain rfl : Datum.ofInt32 value = datum := by
    cases h
    rfl
  have hfits : -0x80000000 ≤ value.toInt ∧ value.toInt < 0x80000000 :=
    ⟨value.le_toInt, value.toInt_lt⟩
  rw [Datum.ofInt32, int32, int32OfInt?, if_pos hfits, Int32.ofInt_toInt]

theorem reads_id {kind : IdKind} : (id : Decoder (Id kind)).Reads .ofId := by
  intro format value datum h
  rw [id, reads_word format value.number datum h]
  rfl

/-- A value that is never written as null can be told from none. -/
theorem Reads.nullable {decode : Decoder α} {encode : α → Datum} (h : decode.Reads encode)
    (hnull : ∀ value, encode value ≠ .null) : decode.nullable.Reads (.ofOption encode) := by
  intro format value datum halike
  cases value with
  | none =>
      cases halike
      rfl
  | some value =>
      have hread := h format value datum halike
      have hne : datum ≠ .null := by
        rintro rfl
        exact hnull value halike.eq_null
      rw [Decoder.nullable, hread]
      · rfl
      · exact hne

theorem Reads.list {decode : Decoder α} {encode : α → Datum} (h : decode.Reads encode) :
    decode.list.Reads (.ofList encode) := by
  intro format values datum halike
  obtain ⟨items, rfl, hitems⟩ := halike.exists_items
  clear halike
  rw [List.forall₂_map_left_iff] at hitems
  rw [Decoder.list]
  induction hitems with
  | nil => rfl
  | cons hitem _ ih =>
      rw [List.mapM_cons, h format _ _ hitem, ih]
      rfl

theorem Reads.set [Ord α] [Std.TransOrd α] [Std.LawfulEqOrd α] [DecidableEq α]
    {decode : Decoder α} {encode : α → Datum} (h : decode.Reads encode) :
    (Decoder.set decode).Reads (.ofSet encode) := by
  intro format values datum halike
  rw [Decoder.set, h.list format values.toList datum halike]
  have hvalues : ExtTreeSet.ofList values.toList = values := by
    apply ExtTreeSet.ext_mem
    intro value
    rw [ExtTreeSet.mem_ofList, List.contains_iff_mem, ExtTreeSet.mem_toList]
  rw [Option.map_some, hvalues]

end Decoder

/-! ## Fields -/

namespace Fields.Show

variable {α : Type} {record : Fields} {fields : List (String × Datum)} {decode : Decoder α}
  {encode : α → Datum} {name : String} {value : α} (h : record.Show fields)
include h

theorem exists_get? {datum : Datum} (hfield : fields.lookup name = some datum) :
    ∃ datum', record.get? name = some datum' ∧ datum.Alike datum' := by
  have hrel := h name
  rw [hfield] at hrel
  cases hget : record.get? name with
  | none =>
      rw [hget] at hrel
      cases hrel
  | some datum' =>
      rw [hget] at hrel
      cases hrel with
      | some halike => exact ⟨datum', rfl, halike⟩

theorem required (hreads : decode.Reads encode)
    (hfield : fields.lookup name = some (encode value)) :
    record.required name decode = some value := by
  obtain ⟨datum, hget, halike⟩ := h.exists_get? hfield
  rw [Fields.required, hget]
  exact hreads record.format value datum halike

theorem defaulted (fallback : α) (hreads : decode.Reads encode)
    (hfield : fields.lookup name = some (encode value)) :
    record.defaulted name fallback decode = some value := by
  obtain ⟨datum, hget, halike⟩ := h.exists_get? hfield
  rw [Fields.defaulted, hget]
  exact hreads record.format value datum halike

theorem optional {value : Option α} (hreads : decode.Reads encode)
    (hnull : ∀ value, encode value ≠ .null)
    (hfield : fields.lookup name = some (.ofOption encode value)) :
    record.optional name decode = some value :=
  h.defaulted none (hreads.nullable hnull) hfield

theorem get?_text {text : String} (hfield : fields.lookup name = some (.text text)) :
    record.get? name = some (.text text) := by
  obtain ⟨datum, hget, halike⟩ := h.exists_get? hfield
  cases halike
  exact hget

/-- A tag among the fields says how the record is read. -/
theorem taggedWithin {tag : String} {alternatives : List (String × Decoder α)}
    (htag : fields.lookup name = some (.text tag))
    (halternative : alternatives.lookup tag = some decode)
    (hreads : decode record.format (.record record.fields) = some value) :
    Decoder.taggedWithin name alternatives record.format (.record record.fields) = some value := by
  have hget : record.fields.lookup name = some (.text tag) := h.get?_text htag
  obtain ⟨format, fields'⟩ := record
  rw [Decoder.taggedWithin, hget]
  cases format <;> simpa [Decoder.alternative, halternative] using hreads

end Fields.Show

end ControlPlane
