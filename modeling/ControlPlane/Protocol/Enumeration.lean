/-
# Enumerations

A client numbers tables, and the columns of each table, densely from zero. An
enumeration holds the canonical ids in that order. A number or an id outside it is
answered with a sentinel, which lives in the same 32-bit space as the ids.
-/

namespace ControlPlane

/-- The answer for an ordinal or an id that has no counterpart. -/
def unmapped : Int32 := -1

/-- Canonical ids in the order in which a client counts them. -/
structure Enumeration where
  ids : List Int32
deriving DecidableEq

namespace Enumeration

/-- The id at an ordinal. -/
def toCanonical (e : Enumeration) (ordinal : Int32) : Int32 :=
  if 0 ≤ ordinal.toInt then e.ids[ordinal.toInt.toNat]?.getD unmapped else unmapped

/-- The ordinal of an id, the last one if the id stands there more than once. -/
def toOrdinal (e : Enumeration) (id : Int32) : Int32 :=
  match e.ids.zipIdx.reverse.find? (fun entry => entry.1 == id) with
  | some entry => Int32.ofNat entry.2
  | none => unmapped

def size (e : Enumeration) : Nat :=
  e.ids.length

end Enumeration

end ControlPlane
