/-
# Files as commands see them

A command asks for paths and is told what stands there. A directory that is held in
memory answers by resolving a path step by step, as a file system does.
-/

namespace ControlPlane

/-- What stands at a path. -/
inductive PathState
  | absent
  /-- There is something, but no text can be read from it. -/
  | unreadable
  | readable (text : String)
deriving DecidableEq

namespace PathState

def isPresent : PathState → Bool
  | .absent => false
  | _ => true

def text? : PathState → Option String
  | .readable text => some text
  | _ => none

end PathState

/-- Whether a character is written by its number when a path is shown: control characters
are. -/
def isHiddenInPath (c : Char) : Bool :=
  c.toNat < 32 || (127 ≤ c.toNat && c.toNat < 160)

/-- A character of a path that is shown between quotes. -/
def escapePathChar (c : Char) : List Char :=
  if c = '\x00' then ['\\', '0']
  else if c = '\t' then ['\\', 't']
  else if c = '\r' then ['\\', 'r']
  else if c = '\n' then ['\\', 'n']
  else if c = '\x27' || c = '"' || c = '\\' then ['\\', c]
  else if isHiddenInPath c then
    ['\\', 'u', '\x7b'] ++ Nat.toDigits 16 c.toNat ++ ['\x7d']
  else [c]

/-- A path between quotes. -/
def quotedPath (path : String) : String :=
  String.ofList ('"' :: path.toList.flatMap escapePathChar ++ ['"'])

/-- A directory with files below it, by their relative paths. -/
structure Directory where
  files : List (String × String)

namespace Directory

/-- A path as its parts between slashes. -/
def partsOf (path : String) : List String :=
  (path.toList.splitBy fun a b => a != '/' && b != '/').map String.ofList

/-- Whether some file stands below a path of plain parts. -/
def isDirectory (d : Directory) (parts : List String) : Bool :=
  parts.isEmpty || d.files.any fun file =>
    let names := (partsOf file.1).filter (· != "/")
    parts.length < names.length && parts.isPrefixOf names

/-- Go on from a directory, given by its parts, along the parts of a path. -/
def resolve (d : Directory) (reached : List String) : List String → PathState
  | [] => if d.isDirectory reached then .unreadable else .absent
  | part :: rest =>
      if part = "/" || part = "." then d.resolve reached rest
      else if part = ".." then d.resolve reached.dropLast rest
      else
        let next := reached ++ [part]
        if d.isDirectory next then d.resolve next rest
        else
          match rest, d.files.lookup ("/".intercalate next) with
          | [], some text => .readable text
          | _, _ => .absent

/-- What stands at a path. Only relative paths lead into the directory. -/
def look (d : Directory) (path : String) : PathState :=
  match partsOf path with
  | [] | "/" :: _ => .absent
  | parts => d.resolve [] parts

end Directory

end ControlPlane
