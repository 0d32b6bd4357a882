/-
# Reading typed values from data

A decoder reads a value of one type or refuses. Names that a record does not declare
are ignored; a list may stand for a record when its items are the declared fields in
order. The two notations differ in one point only: superfluous items of such a list
are refused in JSON and ignored in TOML.
-/

import ControlPlane.Datum.Basic

namespace ControlPlane

/-- The notation a datum was written in. -/
inductive Format
  | json
  | toml
deriving DecidableEq

/-- Reads a value of one type, or refuses. -/
abbrev Decoder (α : Type) := Format → Datum → Option α

namespace Decoder

variable {α β : Type}

def text : Decoder String
  | _, .text value => some value
  | _, _ => none

def bool : Decoder Bool
  | _, .bool value => some value
  | _, _ => none

/-- A whole number that fits an unsigned 64-bit word. -/
def word : Decoder UInt64
  | _, .int value => uint64OfInt? value
  | _, _ => none

/-- A whole number that fits a signed 32-bit word. -/
def int32 : Decoder Int32
  | _, .int value => int32OfInt? value
  | _, _ => none

/-- A whole number that fits a signed 64-bit word. -/
def int64 : Decoder Int
  | _, .int value => if FitsInt64 value then some value else none
  | _, _ => none

def id {kind : IdKind} : Decoder (Id kind) :=
  fun format datum => (word format datum).map Id.mk

/-- A value or null. -/
def nullable (decode : Decoder α) : Decoder (Option α)
  | _, .null => some none
  | format, datum => (decode format datum).map some

def list (decode : Decoder α) : Decoder (List α)
  | format, .list items => items.mapM (decode format)
  | _, _ => none

/-- A list whose order and repetitions do not matter. -/
def set [Ord α] (decode : Decoder α) : Decoder (Std.ExtTreeSet α) :=
  fun format datum => (list decode format datum).map fun items => Std.ExtTreeSet.ofList items

/-- A list of two items. -/
def pair (first : Decoder α) (second : Decoder β) : Decoder (α × β)
  | format, .list [a, b] => do return (← first format a, ← second format b)
  | _, _ => none

/-- A record whose field names are free. -/
def map (decode : Decoder α) : Decoder (Std.ExtTreeMap String α)
  | format, .record fields =>
      (fields.mapM fun field => (decode format field.2).map (Prod.mk field.1)).map
        fun entries => Std.ExtTreeMap.ofList entries
  | _, _ => none

end Decoder

/-- Types whose values are read from data in one way. -/
class OfDatum (α : Type) where
  decoder : Decoder α

namespace OfDatum

variable {α β : Type}

instance : OfDatum Datum := ⟨fun _ datum => some datum⟩

instance : OfDatum Bool := ⟨.bool⟩

instance : OfDatum String := ⟨.text⟩

instance : OfDatum UInt64 := ⟨.word⟩

instance : OfDatum Int32 := ⟨.int32⟩

instance : OfDatum Int := ⟨.int64⟩

instance {kind : IdKind} : OfDatum (Id kind) := ⟨.id⟩

instance [OfDatum α] : OfDatum (Option α) := ⟨.nullable decoder⟩

instance [OfDatum α] : OfDatum (List α) := ⟨.list decoder⟩

instance [OfDatum α] [OfDatum β] : OfDatum (α × β) := ⟨.pair decoder decoder⟩

instance [Ord α] [OfDatum α] : OfDatum (Std.ExtTreeSet α) := ⟨.set decoder⟩

instance [OfDatum α] : OfDatum (Std.ExtTreeMap String α) := ⟨.map decoder⟩

end OfDatum

/-- The fields of a record under their names, in one notation. -/
structure Fields where
  format : Format
  fields : List (String × Datum)

namespace Fields

variable {α : Type}

/-- The fields of a record, or of a list that stands for one. -/
def ofDatum? (declared : List String) (format : Format) : Datum → Option Fields
  | .record fields => some ⟨format, fields⟩
  | .list items =>
      if format = .json ∧ declared.length < items.length then none
      else some ⟨format, declared.zip items⟩
  | _ => none

/-- The fields of a record proper. -/
def ofRecord? (format : Format) : Datum → Option Fields
  | .record fields => some ⟨format, fields⟩
  | _ => none

def get? (record : Fields) (name : String) : Option Datum :=
  record.fields.lookup name

/-- A field that must be there. -/
def required (record : Fields) (name : String) (decode : Decoder α) : Option α :=
  (record.get? name).bind (decode record.format)

/-- A field with a value to fall back on. A field that is there must be readable. -/
def defaulted (record : Fields) (name : String) (fallback : α) (decode : Decoder α) : Option α :=
  match record.get? name with
  | none => some fallback
  | some datum => decode record.format datum

/-- A field that may be absent or null. -/
def optional (record : Fields) (name : String) (decode : Decoder α) : Option (Option α) :=
  record.defaulted name none (.nullable decode)

end Fields

namespace Decoder

variable {α : Type}

/-- The alternative that a tag names. -/
def alternative (alternatives : List (String × Decoder α)) : Datum → Option (Decoder α)
  | .text tag => alternatives.lookup tag
  | _ => none

/-- One of several alternatives, named by a tag among the fields. A list has the tag
first; its other items are read as strictly as in JSON. -/
def tagged (tagName : String) (alternatives : List (String × Decoder α)) : Decoder α
  | format, .record fields => do
      let decode ← alternative alternatives (← fields.lookup tagName)
      decode format (.record fields)
  | _, .list (tag :: items) => do
      let decode ← alternative alternatives tag
      decode .json (.list items)
  | _, _ => none

/-- One of several alternatives whose tag stands among the fields of an enclosing
record. There JSON may also give the position of the alternative. -/
def taggedWithin (tagName : String) (alternatives : List (String × Decoder α)) : Decoder α
  | format, .record fields => do
      let decode ← match format, ← fields.lookup tagName with
        | .json, .int position =>
            if 0 ≤ position then (alternatives[position.toNat]?).map (·.2) else none
        | _, tag => alternative alternatives tag
      decode format (.record fields)
  | _, _ => none

end Decoder

end ControlPlane
