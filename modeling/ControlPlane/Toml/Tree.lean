/-
# Trees of TOML tables

A document is a tree that grows statement by statement. What a header or a dotted key
opened may be extended later under conditions: a table that only stands between others
may still get a header of its own, one that dotted keys made may get further dotted
keys, and one that was written out in full is closed. Of an array of tables the last
element is the one that is extended.
-/

import ControlPlane.Datum.Basic

namespace ControlPlane.Toml

/-- How a table came to be. -/
inductive Origin
  /-- By a header of its own, or as an element of an array. -/
  | declared
  /-- On the way to a table that a header names. -/
  | passedThrough
  /-- By a dotted key. -/
  | dotted
deriving DecidableEq

/-- A node of the tree of tables. -/
inductive Node
  /-- A value that was written out in full. -/
  | leaf (datum : Datum)
  | table (origin : Origin) (entries : List (String × Node))
  /-- An array of tables, element by element; the last one stands first. -/
  | tables (elements : List Node)

namespace Node

instance : Inhabited Node := ⟨.leaf .null⟩

/-- Entries with one of them replaced or added at the end. -/
def put (entries : List (String × Node)) (name : String) (node : Node) : List (String × Node) :=
  match entries with
  | [] => [(name, node)]
  | entry :: rest =>
      if entry.1 = name then (name, node) :: rest else entry :: put rest name node

/-- Change the table at a path below a table. Tables that are missing on the way come
from `onTheWay`. Dotted keys do not enter tables that have a header. -/
def modifyAt (onTheWay : Origin) (change : Node → Option Node) :
    List String → Node → Option Node
  | [], node => change node
  | name :: path, .table origin entries => do
      let child ← match entries.lookup name with
        | none => modifyAt onTheWay change path (.table onTheWay [])
        | some (.leaf _) => none
        | some (.tables []) => none
        | some (.tables (last :: earlier)) =>
            (modifyAt onTheWay change path last).map fun last => .tables (last :: earlier)
        | some (.table childOrigin childEntries) =>
            if onTheWay = .dotted ∧ childOrigin = .declared then none
            else modifyAt onTheWay change path (.table childOrigin childEntries)
      return .table origin (put entries name child)
  | _ :: _, _ => none

/-- Add an entry under a dotted key, whose last part is `name`. The table that gets the
entry must have been made by dotted keys exactly if there are parts before the last. -/
def addValue (path : List String) (name : String) (datum : Datum) : Node → Option Node :=
  modifyAt .dotted (fun node =>
    match node with
    | .table origin entries =>
        if decide (origin = .dotted) = path.isEmpty then none
        else if (entries.lookup name).isSome then none
        else some (.table origin (put entries name (.leaf datum)))
    | _ => none) path

/-- Give a table a header. It must be new or stand only between others. -/
def declareTable (path : List String) (name : String) : Node → Option Node :=
  modifyAt .passedThrough (fun node =>
    match node with
    | .table origin entries =>
        match entries.lookup name with
        | none => some (.table origin (put entries name (.table .declared [])))
        | some (.table .passedThrough children) =>
            some (.table origin (put entries name (.table .declared children)))
        | some _ => none
    | _ => none) path

/-- Add an element to an array of tables, which may be new. -/
def declareElement (path : List String) (name : String) : Node → Option Node :=
  modifyAt .passedThrough (fun node =>
    match node with
    | .table origin entries =>
        match entries.lookup name with
        | none => some (.table origin (put entries name (.tables [.table .declared []])))
        | some (.tables elements) =>
            some (.table origin (put entries name (.tables (.table .declared [] :: elements))))
        | some _ => none
    | _ => none) path

mutual

/-- The tree as data, without what only mattered for extending it. -/
def toDatum : Node → Datum
  | .leaf datum => datum
  | .table _ entries => .record (entryData entries)
  | .tables elements => .list (elementData elements).reverse

def entryData : List (String × Node) → List (String × Datum)
  | [] => []
  | (name, node) :: rest => (name, node.toDatum) :: entryData rest

def elementData : List Node → List Datum
  | [] => []
  | node :: rest => node.toDatum :: elementData rest

end

end Node

end ControlPlane.Toml
