/-
# TOML lexemes: blanks, line ends, texts and keys

A scanner takes a lexeme off the front of the characters that are left, or refuses. Texts
come in four forms; in the two basic forms a backslash starts an escape, in the two
multi-line forms a line break is part of the text. Control characters other than the tab
stand nowhere.
-/

namespace ControlPlane.Toml

/-- Takes something off the front of the characters that are left. -/
abbrev Scanner (α : Type) := List Char → Option (α × List Char)

def isBlank (c : Char) : Bool :=
  c == ' ' || c == '\t'

/-- A character that may stand in a comment and, delimiters apart, in a text. -/
def isPlain (c : Char) : Bool :=
  c == '\t' || (32 ≤ c.toNat && c.toNat != 127)

def skipBlanks (cs : List Char) : List Char :=
  cs.dropWhile isBlank

/-- The characters after a line break, if one stands in front. -/
def lineBreak? : List Char → Option (List Char)
  | '\n' :: rest => some rest
  | '\r' :: '\n' :: rest => some rest
  | _ => none

/-- The characters after a comment, if one stands in front. The line break is left. -/
def skipComment : List Char → List Char
  | '#' :: rest => rest.dropWhile isPlain
  | cs => cs

/-- What remains after the rest of a line: blanks, perhaps a comment, and a line break or
the end. -/
def lineEnd? (cs : List Char) : Option (List Char) :=
  match skipComment (skipBlanks cs) with
  | [] => some []
  | cs => lineBreak? cs

/-- Skip blanks, comments and line breaks. A comment that no line break ends is left. -/
def skipLines (cs : List Char) : List Char :=
  match lineBreak? (skipComment (skipBlanks cs)) with
  | some rest => if rest.length < cs.length then skipLines rest else skipBlanks cs
  | none => skipBlanks cs
termination_by cs.length

/-- The value of a hexadecimal digit. -/
def hexValue? (c : Char) : Option Nat :=
  if '0' ≤ c ∧ c ≤ '9' then some (c.toNat - '0'.toNat)
  else if 'a' ≤ c ∧ c ≤ 'f' then some (c.toNat - 'a'.toNat + 10)
  else if 'A' ≤ c ∧ c ≤ 'F' then some (c.toNat - 'A'.toNat + 10)
  else none

/-- The character whose number is given in hexadecimal digits. -/
def charOfHex? (digits : List Char) : Option Char := do
  let values ← digits.mapM hexValue?
  let number := values.foldl (fun n d => 16 * n + d) 0
  if number.isValidChar then some (Char.ofNat number) else none

/-- The character that an escape of one letter stands for. -/
def letterEscape? : Char → Option Char
  | 'b' => some '\x08'
  | 't' => some '\t'
  | 'n' => some '\n'
  | 'f' => some '\x0c'
  | 'r' => some '\r'
  | '"' => some '"'
  | '\\' => some '\\'
  | _ => none

/-- Put a character in front of a scanned text. -/
def push (c : Char) : List Char × List Char → List Char × List Char
  | (text, rest) => (c :: text, rest)

/-- The rest of a basic text, up to its closing quote. -/
def basicText : Scanner (List Char)
  | [] => none
  | '"' :: rest => some ([], rest)
  | '\\' :: 'u' :: a :: b :: c :: d :: rest => do
      return push (← charOfHex? [a, b, c, d]) (← basicText rest)
  | '\\' :: 'U' :: a :: b :: c :: d :: e :: f :: g :: h :: rest => do
      return push (← charOfHex? [a, b, c, d, e, f, g, h]) (← basicText rest)
  | '\\' :: letter :: rest => do
      return push (← letterEscape? letter) (← basicText rest)
  | c :: rest =>
      if isPlain c && c != '\\' then (basicText rest).map (push c) else none

/-- Whether a line break follows, with nothing but blanks before it. -/
def endsLine (cs : List Char) : Bool :=
  (lineBreak? (skipBlanks cs)).isSome

/-- The rest of a multi-line basic text, up to its three closing quotes; one or two more
quotes before them belong to the text. After a backslash at the end of a line, blanks
and line breaks are passed over. -/
def multilineBasicText (passing : Bool) : Scanner (List Char)
  | [] => none
  | '"' :: '"' :: '"' :: '"' :: '"' :: rest => some (['"', '"'], rest)
  | '"' :: '"' :: '"' :: '"' :: rest => some (['"'], rest)
  | '"' :: '"' :: '"' :: rest => some ([], rest)
  | '\\' :: 'u' :: a :: b :: c :: d :: rest => do
      return push (← charOfHex? [a, b, c, d]) (← multilineBasicText false rest)
  | '\\' :: 'U' :: a :: b :: c :: d :: e :: f :: g :: h :: rest => do
      return push (← charOfHex? [a, b, c, d, e, f, g, h]) (← multilineBasicText false rest)
  | '\\' :: letter :: rest =>
      if endsLine (letter :: rest) then multilineBasicText true (letter :: rest)
      else do
        return push (← letterEscape? letter) (← multilineBasicText false rest)
  | '\r' :: '\n' :: rest =>
      if passing then multilineBasicText true rest
      else (multilineBasicText false rest).map (push '\n')
  | '\n' :: rest =>
      if passing then multilineBasicText true rest
      else (multilineBasicText false rest).map (push '\n')
  | c :: rest =>
      if passing && isBlank c then multilineBasicText true rest
      else if isPlain c && c != '\\' then (multilineBasicText false rest).map (push c)
      else none

/-- The rest of a literal text, up to its closing apostrophe. -/
def literalText : Scanner (List Char)
  | [] => none
  | '\x27' :: rest => some ([], rest)
  | c :: rest => if isPlain c then (literalText rest).map (push c) else none

/-- The rest of a multi-line literal text, closed in the same way. -/
def multilineLiteralText : Scanner (List Char)
  | [] => none
  | '\x27' :: '\x27' :: '\x27' :: '\x27' :: '\x27' :: rest => some (['\x27', '\x27'], rest)
  | '\x27' :: '\x27' :: '\x27' :: '\x27' :: rest => some (['\x27'], rest)
  | '\x27' :: '\x27' :: '\x27' :: rest => some ([], rest)
  | '\r' :: '\n' :: rest => (multilineLiteralText rest).map (push '\n')
  | '\n' :: rest => (multilineLiteralText rest).map (push '\n')
  | c :: rest => if isPlain c then (multilineLiteralText rest).map (push c) else none

/-- A line break right after the opening of a multi-line text is no part of it. -/
def skipFirstBreak (cs : List Char) : List Char :=
  (lineBreak? cs).getD cs

/-- A text of any form. -/
def text : Scanner String
  | '"' :: '"' :: '"' :: rest =>
      (multilineBasicText false (skipFirstBreak rest)).map fun (t, rest) => (String.ofList t, rest)
  | '\x27' :: '\x27' :: '\x27' :: rest =>
      (multilineLiteralText (skipFirstBreak rest)).map fun (t, rest) => (String.ofList t, rest)
  | '"' :: rest => (basicText rest).map fun (t, rest) => (String.ofList t, rest)
  | '\x27' :: rest => (literalText rest).map fun (t, rest) => (String.ofList t, rest)
  | _ => none

def isBareKeyChar (c : Char) : Bool :=
  c.isAlphanum || c == '-' || c == '_'

/-- One part of a key: bare, or a text that stays on its line. -/
def keyPart : Scanner String
  | '"' :: rest => (basicText rest).map fun (t, rest) => (String.ofList t, rest)
  | '\x27' :: rest => (literalText rest).map fun (t, rest) => (String.ofList t, rest)
  | cs =>
      let part := cs.takeWhile isBareKeyChar
      if part = [] then none else some (String.ofList part, cs.dropWhile isBareKeyChar)

/-- A key of one or more parts with dots between them. Blanks around a part and after the
key are passed over. -/
def key (cs : List Char) : Option (List String × List Char) :=
  match keyPart (skipBlanks cs) with
  | none => none
  | some (part, rest) =>
      match skipBlanks rest with
      | '.' :: rest =>
          if rest.length < cs.length then do
            let (parts, rest) ← key rest
            return (part :: parts, rest)
          else none
      | rest => some ([part], rest)
termination_by cs.length

end ControlPlane.Toml
