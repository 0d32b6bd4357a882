/-
# TOML numbers and dates

A lexeme that starts with a sign or a digit is a date or time if it looks like one, else a
number with a fraction or an exponent, else a whole number. Whole numbers fit a signed
64-bit word. Of the others only the text is kept, but a positive one too large for a
double-precision number is refused.
-/

import ControlPlane.Datum.Basic
import ControlPlane.Toml.Lexeme

namespace ControlPlane.Toml

/-- A run of digits in which single underscores may stand between two digits: the digits
without them, and what follows. An underscore elsewhere is left. -/
def digitRun (isDigit : Char → Bool) : Scanner (List Char)
  | [] => none
  | [c] => if isDigit c then some ([c], []) else none
  | c :: '_' :: rest =>
      if isDigit c then
        match digitRun isDigit rest with
        | some (digits, rest) => some (c :: digits, rest)
        | none => some ([c], '_' :: rest)
      else none
  | c :: rest =>
      if isDigit c then
        match digitRun isDigit rest with
        | some (digits, rest) => some (c :: digits, rest)
        | none => some ([c], rest)
      else none

/-- The number written by digits of a base. -/
def digitsValue (base : Nat) (digits : List Char) : Nat :=
  digits.foldl (fun n c => base * n + (hexValue? c).getD 0) 0

/-- A sign, whether it is a minus, and what follows. -/
def sign : List Char → Bool × List Char
  | '-' :: rest => (true, rest)
  | '+' :: rest => (false, rest)
  | cs => (false, cs)

/-- Decimal digits that do not start with a superfluous zero. -/
def decimalDigits : Scanner (List Char)
  | '0' :: rest => some (['0'], rest)
  | cs => digitRun Char.isDigit cs

/-- A whole number that fits a signed 64-bit word. -/
def wordInteger? (value : Int) : Option Datum :=
  if FitsInt64 value then some (.int value) else none

/-- The rest of a whole number in a base other than ten. -/
def basedInteger (base : Nat) (isDigit : Char → Bool) (cs : List Char) :
    Option (Datum × List Char) := do
  let (digits, rest) ← digitRun isDigit cs
  return (← wordInteger? (digitsValue base digits), rest)

def isHexDigit (c : Char) : Bool :=
  (hexValue? c).isSome

def isOctalDigit (c : Char) : Bool :=
  '0' ≤ c && c ≤ '7'

def isBinaryDigit (c : Char) : Bool :=
  c == '0' || c == '1'

/-- A whole number: decimal with an optional sign, or in another base without one. -/
def integer : Scanner Datum
  | '0' :: 'x' :: rest => basedInteger 16 isHexDigit rest
  | '0' :: 'o' :: rest => basedInteger 8 isOctalDigit rest
  | '0' :: 'b' :: rest => basedInteger 2 isBinaryDigit rest
  | cs => do
      let (isNegative, cs) := sign cs
      let (digits, rest) ← decimalDigits cs
      let magnitude : Int := digitsValue 10 digits
      return (← wordInteger? (if isNegative then -magnitude else magnitude), rest)

/-- The least number that a double-precision number cannot hold even after rounding:
halfway between the largest of them and the next power of two. -/
def doubleLimit : Nat := Nat.pow 2 1024 - Nat.pow 2 970

/-- Whether `digits` times ten to the `exponent` reaches that limit. Far from the limit
the place of the first digit decides. -/
def reachesDoubleLimit (digits : List Char) (exponent : Int) : Bool :=
  let significant := digits.dropWhile (· == '0')
  let places : Int := significant.length + exponent
  if significant = [] then false
  else if 309 < places then true
  else if places < 309 then false
  else
    let number := digitsValue 10 significant
    if 0 ≤ exponent then doubleLimit ≤ number * Nat.pow 10 exponent.toNat
    else doubleLimit * Nat.pow 10 (-exponent).toNat ≤ number

/-- The exponent of a number, if there is one: it must have digits. -/
def exponentPart : List Char → Option (Option Int × List Char)
  | 'e' :: rest | 'E' :: rest => do
      let (isNegative, rest) := sign rest
      let (digits, rest) ← digitRun Char.isDigit rest
      let magnitude : Int := digitsValue 10 digits
      return (some (if isNegative then -magnitude else magnitude), rest)
  | cs => some (none, cs)

/-- The fraction of a number, if there is one: it must have digits. -/
def fractionPart : List Char → Option (Option (List Char) × List Char)
  | '.' :: rest => do
      let (digits, rest) ← digitRun Char.isDigit rest
      return (some digits, rest)
  | cs => some (none, cs)

/-- The part of `cs` that stands before `rest`. -/
def consumed (cs rest : List Char) : String :=
  String.ofList (cs.take (cs.length - rest.length))

/-- The rest of a special number. -/
def specialNumber : List Char → Option (List Char)
  | 'i' :: 'n' :: 'f' :: rest => some rest
  | 'n' :: 'a' :: 'n' :: rest => some rest
  | _ => none

/-- A number with a fraction, an exponent or both, or a special number. -/
def real (cs : List Char) : Option (Datum × List Char) := do
  let (isNegative, unsigned) := sign cs
  match specialNumber unsigned with
  | some rest => return (.real (consumed cs rest), rest)
  | none =>
      let (whole, rest) ← decimalDigits unsigned
      let (fraction, rest) ← fractionPart rest
      let (exponent, rest) ← exponentPart rest
      if fraction.isNone && exponent.isNone then none
      let fraction := fraction.getD []
      if !isNegative && reachesDoubleLimit (whole ++ fraction) (exponent.getD 0 - fraction.length)
      then none
      return (.real (consumed cs rest), rest)

/-- A number of exactly two digits within bounds. -/
def twoDigits (least greatest : Nat) : Scanner Nat
  | a :: b :: rest =>
      let n := digitsValue 10 [a, b]
      if a.isDigit && b.isDigit && least ≤ n && n ≤ greatest then some (n, rest) else none
  | _ => none

/-- A fixed character. -/
def skipChar (expected : Char) : List Char → Option (List Char)
  | c :: rest => if c = expected then some rest else none
  | [] => none

/-- The days of a month. -/
def daysInMonth (year month : Nat) : Nat :=
  if month = 2 then
    if year % 4 = 0 ∧ (year % 100 ≠ 0 ∨ year % 400 = 0) then 29 else 28
  else if month = 4 ∨ month = 6 ∨ month = 9 ∨ month = 11 then 30
  else 31

/-- A day of the calendar. -/
def date : List Char → Option (List Char)
  | a :: b :: c :: d :: '-' :: rest => do
      if !([a, b, c, d].all Char.isDigit) then none
      let (month, rest) ← twoDigits 1 12 rest
      let rest ← skipChar '-' rest
      let (_, rest) ← twoDigits 1 (daysInMonth (digitsValue 10 [a, b, c, d]) month) rest
      return rest
  | _ => none

/-- A time of day; the sixtieth second is a leap second. -/
def time (cs : List Char) : Option (List Char) := do
  let (_, rest) ← twoDigits 0 23 cs
  let rest ← skipChar ':' rest
  let (_, rest) ← twoDigits 0 59 rest
  let rest ← skipChar ':' rest
  let (_, rest) ← twoDigits 0 60 rest
  match rest with
  | '.' :: d :: rest => if d.isDigit then return rest.dropWhile Char.isDigit else none
  | rest => return rest

/-- The offset of a time, if there is one. -/
def offset : List Char → Option (List Char)
  | 'Z' :: rest => some rest
  | 'z' :: rest => some rest
  | c :: rest =>
      if c = '+' ∨ c = '-' then do
        let (_, rest) ← twoDigits 0 23 rest
        let rest ← skipChar ':' rest
        let (_, rest) ← twoDigits 0 59 rest
        return rest
      else some (c :: rest)
  | [] => some []

/-- Whether two digits and a colon stand in front, as in a time. -/
def looksLikeTime : List Char → Bool
  | a :: b :: ':' :: _ => a.isDigit && b.isDigit
  | _ => false

/-- Whether four digits and a dash stand in front, as in a date. -/
def looksLikeDate : List Char → Bool
  | a :: b :: c :: d :: '-' :: _ => [a, b, c, d].all Char.isDigit
  | _ => false

/-- A date, a date with a time, or a time. A blank separates a date from a time only if a
time follows. -/
def dateTime (cs : List Char) : Option (List Char) :=
  if looksLikeDate cs then do
    let rest ← date cs
    match rest with
    | delimiter :: following =>
        if (delimiter = 'T' ∨ delimiter = 't' ∨ delimiter = ' ') ∧ looksLikeTime following then
          offset (← time following)
        else some rest
    | [] => some rest
  else time cs

/-- Dates are read as records with one field, which no document declares. -/
def dateField : String := "date-time"

/-- A date, a time or a number. -/
def number (cs : List Char) : Option (Datum × List Char) :=
  if looksLikeDate cs || looksLikeTime cs then do
    let rest ← dateTime cs
    return (.record [(dateField, .text (consumed cs rest))], rest)
  else
    match real cs with
    | some scanned => some scanned
    | none => integer cs

end ControlPlane.Toml
