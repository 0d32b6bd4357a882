/-
# Writing TOML

Of the four forms of a text the plainest that can hold it is chosen: the basic form if
nothing in it needs an escape, else the literal form, else the multi-line basic form,
else the multi-line literal form. Only if none of them holds it, the basic form is
written with escapes.
-/

import ControlPlane.Datum.Json
import ControlPlane.Toml.Lexeme

namespace ControlPlane.Toml

/-- The longest run of a character. -/
def longestRun (c : Char) (cs : List Char) : Nat :=
  (cs.foldl (fun (best, current) d =>
    let current := if d = c then current + 1 else 0
    (max best current, current)) (0, 0)).1

/-- A control character that is neither a tab nor a line feed. -/
def isForbidden (c : Char) : Bool :=
  (c.toNat < 32 && c != '\t' && c != '\n') || c.toNat == 127

/-- The forms of a text. -/
inductive TextForm
  | basic
  | literal
  | multilineBasic
  | multilineLiteral
deriving DecidableEq

/-- The form in which a text is written. A line feed counts as forbidden where lines must
not break. -/
def textForm (cs : List Char) : TextForm :=
  let hasForbidden := cs.any isForbidden
  let hasEscape := cs.contains '\\'
  let hasBreak := cs.contains '\n'
  let quotes := longestRun '"' cs
  let apostrophes := longestRun '\x27' cs
  if !hasForbidden && !hasEscape && quotes == 0 && !hasBreak then .basic
  else if !hasForbidden && apostrophes == 0 && !hasBreak then .literal
  else if !hasForbidden && !hasEscape && quotes ≤ 2 then .multilineBasic
  else if !hasForbidden && apostrophes ≤ 2 then .multilineLiteral
  else if hasBreak then .multilineBasic
  else .basic

/-- The form in which a part of a key is written, if it cannot stand bare. -/
def keyForm (cs : List Char) : TextForm :=
  let hasForbidden := cs.any fun c => isForbidden c || c == '\n'
  if !hasForbidden && !cs.contains '\\' && !cs.contains '"' then .basic
  else if !hasForbidden && !cs.contains '\x27' then .literal
  else .basic

/-- Four hexadecimal digits in upper case. -/
def fourHexDigits (n : Nat) : List Char :=
  [n / 4096 % 16, n / 256 % 16, n / 16 % 16, n % 16].map fun d => (Json.hexDigit d).toUpper

/-- The characters of a text in a basic form. Up to `allowed` quotes in a row stand
without an escape, and line feeds do if `keepBreaks` says so. `run` is the number of
quotes that stand just before. -/
def escaped (allowed : Nat) (keepBreaks : Bool) (run : Nat) : List Char → List Char
  | [] => []
  | '"' :: rest =>
      if run < allowed then '"' :: escaped allowed keepBreaks (run + 1) rest
      else '\\' :: '"' :: escaped allowed keepBreaks 0 rest
  | c :: rest =>
      let written :=
        if c = '\x08' then ['\\', 'b']
        else if c = '\t' then ['\\', 't']
        else if c = '\n' then if keepBreaks then ['\n'] else ['\\', 'n']
        else if c = '\x0c' then ['\\', 'f']
        else if c = '\r' then ['\\', 'r']
        else if c = '\\' then ['\\', '\\']
        else if isForbidden c then '\\' :: 'u' :: fourHexDigits c.toNat
        else [c]
      written ++ escaped allowed keepBreaks 0 rest

/-- A text in a given form. A multi-line text that holds a line feed starts on a line of
its own. -/
def writeText (form : TextForm) (cs : List Char) : List Char :=
  let start := if cs.contains '\n' then ['\n'] else []
  match form with
  | .basic => '"' :: escaped 0 false 0 cs ++ ['"']
  | .literal => '\x27' :: cs ++ ['\x27']
  | .multilineBasic =>
      List.replicate 3 '"' ++ start ++ escaped 2 true 0 cs ++ List.replicate 3 '"'
  | .multilineLiteral =>
      List.replicate 3 '\x27' ++ start ++ cs ++ List.replicate 3 '\x27'

/-- A text as a value. -/
def textValue (text : String) : String :=
  String.ofList (writeText (textForm text.toList) text.toList)

/-- A text as a key. -/
def keyText (name : String) : String :=
  let cs := name.toList
  if !cs.isEmpty && cs.all isBareKeyChar then name
  else String.ofList (writeText (keyForm cs) cs)

/-- A list of texts: on one line if it has at most one item, else an item a line. -/
def textList (items : List String) : String :=
  match items with
  | [] => "[]"
  | [item] => "[" ++ textValue item ++ "]"
  | items => "[\n" ++ String.join (items.map fun item => "    " ++ textValue item ++ ",\n") ++ "]"

/-- An entry on a line of its own. -/
def entryLine (name value : String) : String :=
  keyText name ++ " = " ++ value ++ "\n"

end ControlPlane.Toml
