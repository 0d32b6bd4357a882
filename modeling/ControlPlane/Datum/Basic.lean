/-
# Structured data

Documents arrive as JSON or as TOML and reports leave as JSON. A datum is what both
notations can say: numbers that are not whole are kept as their text only, since no
document of this platform has a place for one.
-/

import ControlPlane.Ids
import ControlPlane.Word

namespace ControlPlane

/-- A value of a structured document. -/
inductive Datum
  | null
  | bool (value : Bool)
  | int (value : Int)
  /-- A number with a fraction or an exponent, as it was written. -/
  | real (literal : String)
  | text (value : String)
  | list (items : List Datum)
  /-- Named fields; no name stands twice in a well-formed record. -/
  | record (fields : List (String × Datum))

namespace Datum

instance : Inhabited Datum := ⟨.null⟩

/-- A 64-bit word. -/
def ofWord (value : UInt64) : Datum :=
  .int value.toNat

/-- A count. -/
def ofCount (value : Nat) : Datum :=
  .int value

/-- A 32-bit signed word. -/
def ofInt32 (value : Int32) : Datum :=
  .int value.toInt

def ofId {kind : IdKind} (id : Id kind) : Datum :=
  ofWord id.number

/-- A value that may be absent; absence is written as null. -/
def ofOption {α : Type} (encode : α → Datum) : Option α → Datum
  | none => .null
  | some value => encode value

def ofList {α : Type} (encode : α → Datum) (items : List α) : Datum :=
  .list (items.map encode)

/-- The items of a set, in their order. -/
def ofSet {α : Type} [Ord α] [Std.TransOrd α] (encode : α → Datum) (items : Std.ExtTreeSet α) :
    Datum :=
  ofList encode items.toList

/-- The entries of a map as the fields of a record, in the order of their keys. -/
def ofMap {κ α : Type} [Ord κ] [Std.TransOrd κ] (name : κ → String) (encode : α → Datum)
    (entries : Std.ExtTreeMap κ α) : Datum :=
  .record (entries.toList.map fun entry => (name entry.1, encode entry.2))

mutual

/-- The same datum with the fields of every record in the order of their names. -/
def sortFields : Datum → Datum
  | .list items => .list (sortItems items)
  | .record fields =>
      .record ((sortEach fields).mergeSort fun a b => (compare a.1 b.1).isLE)
  | datum => datum

def sortItems : List Datum → List Datum
  | [] => []
  | item :: rest => item.sortFields :: sortItems rest

def sortEach : List (String × Datum) → List (String × Datum)
  | [] => []
  | (name, value) :: rest => (name, value.sortFields) :: sortEach rest

end

end Datum

/-- Types whose values are written as data in one way. -/
class ToDatum (α : Type) where
  toDatum : α → Datum

/-- A value of such a type as a datum. -/
def Datum.of {α : Type} [ToDatum α] (value : α) : Datum :=
  ToDatum.toDatum value

namespace ToDatum

variable {α : Type}

instance : ToDatum Datum := ⟨id⟩

instance : ToDatum Bool := ⟨.bool⟩

instance : ToDatum String := ⟨.text⟩

instance : ToDatum UInt64 := ⟨.ofWord⟩

instance : ToDatum Nat := ⟨.ofCount⟩

instance : ToDatum Int32 := ⟨.ofInt32⟩

instance {kind : IdKind} : ToDatum (Id kind) := ⟨.ofId⟩

instance [ToDatum α] : ToDatum (Option α) := ⟨.ofOption .of⟩

instance [ToDatum α] : ToDatum (List α) := ⟨.ofList .of⟩

instance [Ord α] [Std.TransOrd α] [ToDatum α] : ToDatum (Std.ExtTreeSet α) := ⟨.ofSet .of⟩

instance [ToDatum α] : ToDatum (Std.ExtTreeMap String α) := ⟨.ofMap id .of⟩

end ToDatum

end ControlPlane
