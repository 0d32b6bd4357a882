/-
# Reading TOML documents

A document is a sequence of lines, each with a header, an entry or nothing. Values nest
in arrays and inline tables up to a fixed depth. A text that is no document is refused;
why it is none is not kept.
-/

import ControlPlane.Datum.Decode
import ControlPlane.Toml.Number
import ControlPlane.Toml.Tree

namespace ControlPlane.Toml

/-- How deep arrays and inline tables may nest, and how many parts a key may have. -/
def maxDepth : Nat := 79

/-- A key split into the parts before the last and the last. -/
def splitKey (cs : List Char) : Option (List String × String × List Char) := do
  let (parts, rest) ← key cs
  if maxDepth < parts.length then none
  return (parts.dropLast, ← parts.getLast?, rest)

/-- The items of an array up to its closing bracket, with the scanner of an item. -/
def arrayItems (item : Scanner Datum) (cs : List Char) : Option (List Datum × List Char) :=
  match skipLines cs with
  | ']' :: rest => some ([], rest)
  | cs' =>
      match item cs' with
      | none => none
      | some (datum, rest) =>
          match skipLines rest with
          | ']' :: rest => some ([datum], rest)
          | ',' :: rest =>
              if rest.length < cs.length then do
                let (items, rest) ← arrayItems item rest
                return (datum :: items, rest)
              else none
          | _ => none
termination_by cs.length

/-- A key, an equals sign and a value. Blanks around them are passed over. -/
def entry (item : Scanner Datum) (cs : List Char) :
    Option ((List String × String × Datum) × List Char) := do
  let (path, name, rest) ← splitKey cs
  match rest with
  | '=' :: rest =>
      let (datum, rest) ← item (skipBlanks rest)
      return ((path, name, datum), skipBlanks rest)
  | _ => none

/-- The entries of an inline table up to its closing brace, added to those before. There
is at least one left. -/
def inlineEntries (item : Scanner Datum) (node : Node) (cs : List Char) :
    Option (Node × List Char) :=
  match entry item cs with
  | none => none
  | some ((path, name, datum), rest) =>
      match node.addValue path name datum, rest with
      | some node, '\x7d' :: rest => some (node, rest)
      | some node, ',' :: rest =>
          if rest.length < cs.length then inlineEntries item node rest else none
      | _, _ => none
termination_by cs.length

/-- An inline table, after its opening brace. -/
def inlineTable (item : Scanner Datum) (cs : List Char) : Option (Datum × List Char) :=
  match skipBlanks cs with
  | '\x7d' :: rest => some (.record [], rest)
  | cs => (inlineEntries item (.table .declared []) cs).map fun (node, rest) =>
      (node.toDatum, rest)

/-- A value in which arrays and inline tables nest at most `depth` times. -/
def value (depth : Nat) (cs : List Char) : Option (Datum × List Char) :=
  match cs with
  | '[' :: rest =>
      match depth with
      | 0 => none
      | depth + 1 => (arrayItems (value depth) rest).map fun (items, rest) => (.list items, rest)
  | '\x7b' :: rest =>
      match depth with
      | 0 => none
      | depth + 1 => inlineTable (value depth) rest
  | 't' :: 'r' :: 'u' :: 'e' :: rest => some (.bool true, rest)
  | 'f' :: 'a' :: 'l' :: 's' :: 'e' :: rest => some (.bool false, rest)
  | '"' :: _ | '\x27' :: _ => (text cs).map fun (t, rest) => (.text t, rest)
  | _ => number cs

/-- A document that is being read: its tree, and the table that entries go to. -/
structure Draft where
  tree : Node := .table .declared []
  current : List String := []

/-- A header of a table or of an element of an array of tables. -/
def header (draft : Draft) (cs : List Char) : Option (Draft × List Char) :=
  match cs with
  | '[' :: '[' :: rest => do
      let (path, name, rest) ← splitKey rest
      match rest with
      | ']' :: ']' :: rest =>
          return ({ tree := ← draft.tree.declareElement path name
                    current := path ++ [name] }, ← lineEnd? rest)
      | _ => none
  | '[' :: rest => do
      let (path, name, rest) ← splitKey rest
      match rest with
      | ']' :: rest =>
          return ({ tree := ← draft.tree.declareTable path name
                    current := path ++ [name] }, ← lineEnd? rest)
      | _ => none
  | _ => none

/-- An entry of the current table. -/
def statement (draft : Draft) (cs : List Char) : Option (Draft × List Char) := do
  let ((path, name, datum), rest) ← entry (value maxDepth) cs
  let tree ← draft.tree.modifyAt .passedThrough (Node.addValue path name datum) draft.current
  return ({ draft with tree }, ← lineEnd? rest)

/-- All lines of a document. -/
def lines (draft : Draft) (cs : List Char) : Option Draft :=
  match skipBlanks cs with
  | [] => some draft
  | c :: rest =>
      let scanned : Option (Draft × List Char) :=
        if c = '#' ∨ c = '\n' ∨ c = '\r' then (lineEnd? (c :: rest)).map (Prod.mk draft)
        else if c = '[' then header draft (c :: rest)
        else statement draft (c :: rest)
      match scanned with
      | some (draft, remaining) =>
          if remaining.length < cs.length then lines draft remaining else none
      | none => none
termination_by cs.length

/-- Read a document. A byte order mark in front of it is passed over. -/
def read? (text : String) : Option Datum :=
  let cs := match text.toList with
    | '\uFEFF' :: rest => rest
    | cs => cs
  (lines {} cs).map fun draft => draft.tree.toDatum

/-- Read a document of an expected shape. -/
def readAs? {α : Type} (decode : Decoder α) (text : String) : Option α :=
  (read? text).bind (decode .toml)

end ControlPlane.Toml
