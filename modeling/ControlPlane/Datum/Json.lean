/-
# JSON text

Two ways to write a datum as JSON: on one line without blanks, and over several lines
with two blanks for each level. Text is written as it is, except that quotes,
backslashes and the control characters below the blank are escaped.
-/

import ControlPlane.Datum.Basic

namespace ControlPlane.Json

/-- A digit of a hexadecimal number, in lower case. -/
def hexDigit (n : Nat) : Char :=
  if n < 10 then Char.ofNat ('0'.toNat + n) else Char.ofNat ('a'.toNat + (n - 10))

/-- How a character is written inside quotes. -/
def escape (c : Char) : List Char :=
  if c = '"' then ['\\', '"']
  else if c = '\\' then ['\\', '\\']
  else if c = '\n' then ['\\', 'n']
  else if c = '\r' then ['\\', 'r']
  else if c = '\t' then ['\\', 't']
  else if c = '\x08' then ['\\', 'b']
  else if c = '\x0c' then ['\\', 'f']
  else if c.toNat < 32 then ['\\', 'u', '0', '0', hexDigit (c.toNat / 16), hexDigit (c.toNat % 16)]
  else [c]

/-- A text between quotes. -/
def quoted (text : String) : List Char :=
  '"' :: text.toList.flatMap escape ++ ['"']

def integer (value : Int) : List Char :=
  (toString value).toList

/-- Pieces with a separator between each two. -/
def separated (separator : List Char) : List (List Char) → List Char
  | [] => []
  | [piece] => piece
  | piece :: rest => piece ++ separator ++ separated separator rest

/-- A scalar is written the same in both ways. -/
def scalar : Datum → List Char
  | .null => "null".toList
  | .bool true => "true".toList
  | .bool false => "false".toList
  | .int value => integer value
  | .real literal => literal.toList
  | .text value => quoted value
  | .list _ | .record _ => []

mutual

/-- On one line, without blanks. -/
def compact : Datum → List Char
  | .list items => '[' :: separated [','] (compactItems items) ++ [']']
  | .record fields => '\x7b' :: separated [','] (compactFields fields) ++ ['\x7d']
  | datum => scalar datum

def compactItems : List Datum → List (List Char)
  | [] => []
  | item :: rest => compact item :: compactItems rest

def compactFields : List (String × Datum) → List (List Char)
  | [] => []
  | (name, value) :: rest => (quoted name ++ ':' :: compact value) :: compactFields rest

end

/-- The start of a line at a level. -/
def lineStart (level : Nat) : List Char :=
  '\n' :: List.replicate (2 * level) ' '

/-- Pieces between brackets, each on a line of its own. -/
def block (opening closing : Char) (level : Nat) (pieces : List (List Char)) : List Char :=
  if pieces = [] then [opening, closing]
  else
    opening :: lineStart (level + 1) ++ separated (',' :: lineStart (level + 1)) pieces
      ++ lineStart level ++ [closing]

mutual

/-- Over several lines, starting at a level. -/
def pretty (level : Nat) : Datum → List Char
  | .list items => block '[' ']' level (prettyItems (level + 1) items)
  | .record fields => block '\x7b' '\x7d' level (prettyFields (level + 1) fields)
  | datum => scalar datum

def prettyItems (level : Nat) : List Datum → List (List Char)
  | [] => []
  | item :: rest => pretty level item :: prettyItems level rest

def prettyFields (level : Nat) : List (String × Datum) → List (List Char)
  | [] => []
  | (name, value) :: rest =>
      (quoted name ++ ':' :: ' ' :: pretty level value) :: prettyFields level rest

end

/-- A datum on one line. -/
def compactText (datum : Datum) : String :=
  String.ofList (compact datum)

/-- A datum over several lines. -/
def prettyText (datum : Datum) : String :=
  String.ofList (pretty 0 datum)

end ControlPlane.Json
