/-
# Reading command lines

Arguments are read from left to right: words lead through the tree of commands, options
give settings. The first thing that is wrong, or the first request for help or for the
version, ends the reading. A setting may be given once at each place on the way; the
last place counts.
-/

import ControlPlane.Command.Place
import ControlPlane.Word

namespace ControlPlane

/-- What a command line asks for. -/
inductive Request
  | run (invocation : Invocation)
  | version
  | help (place : Place)

/-- Why a command line cannot be understood. -/
inductive LineError
  | unexpected (argument : String)
  | missingValue (setting : Setting)
  | badValue (setting : Setting) (value : String)
  | repeated (setting : Setting)
  | missingSetting (setting : Setting)
  | missingCommand
deriving DecidableEq

def LineError.message : LineError → String
  | .unexpected argument => "unexpected argument: " ++ argument
  | .missingValue setting => "a value is needed for --" ++ setting.name
  | .badValue setting value => "invalid value for --" ++ setting.name ++ ": " ++ value
  | .repeated setting => "given more than once: --" ++ setting.name
  | .missingSetting setting => "missing: --" ++ setting.name
  | .missingCommand => "a command is needed"

/-- The number that decimal digits stand for, if there are any and nothing else. -/
def digitsNumber? (digits : List Char) : Option Nat :=
  if digits ≠ [] ∧ digits.all Char.isDigit then
    some (digits.foldl (fun n c => 10 * n + (c.toNat - '0'.toNat)) 0)
  else none

/-- An unsigned 64-bit number in decimal; a plus may stand before it. -/
def wordOfText? (text : String) : Option UInt64 := do
  let number ← digitsNumber? <|
    match text.toList with
    | '+' :: digits => digits
    | digits => digits
  uint64OfInt? number

/-- A signed 32-bit number in decimal; a sign may stand before it. -/
def int32OfText? (text : String) : Option Int32 := do
  let number : Int ←
    match text.toList with
    | '-' :: digits => do pure (-(← digitsNumber? digits : Nat) : Int)
    | '+' :: digits => do pure (← digitsNumber? digits : Nat)
    | digits => do pure (← digitsNumber? digits : Nat)
  int32OfInt? number

/-- An argument as it looks by itself. -/
inductive Argument
  | word (text : String)
  /-- Two dashes, a name and perhaps a value after an equals sign. -/
  | named (name : String) (value : Option String)
  /-- A dash and letters. -/
  | lettered (letter : Char) (rest : List Char)
  /-- Two dashes alone. -/
  | separator
deriving DecidableEq

/-- A value that may follow a letter, with or without an equals sign. -/
def attachedValue? : List Char → Option String
  | [] => none
  | '=' :: value => some (String.ofList value)
  | value => some (String.ofList value)

namespace Argument

def ofText (text : String) : Argument :=
  match text.toList with
  | ['-', '-'] => .separator
  | '-' :: '-' :: cs =>
      .named (String.ofList (cs.takeWhile (· != '='))) (attachedValue? (cs.dropWhile (· != '=')))
  | '-' :: letter :: rest => .lettered letter rest
  | _ => .word text

/-- Whether an argument may be the value of the option before it. -/
def isWord : Argument → Bool
  | .word _ => true
  | _ => false

end Argument

/-- An option as it occurs at a place. -/
inductive Occurrence
  | help
  | version
  | setting (setting : Setting) (value : Option String)
deriving DecidableEq

/-- The option that an argument gives at a place. Only before all commands it may ask
for the version. -/
def Place.occurrence? (place : Place) : Argument → Option Occurrence
  | .named name value =>
      if name = "help" ∧ value = none then some .help
      else if name = "version" ∧ value = none ∧ place = .top then some .version
      else (place.settings.find? fun s => s.name == name).map (.setting · value)
  | .lettered letter rest =>
      if letter = 'h' then some .help
      else if letter = 'V' ∧ place = .top then some .version
      else
        (place.settings.find? fun s => s.letter? == some letter).map
          (.setting · (attachedValue? rest))
  | _ => none

/-- A command line that has been read up to some point. -/
structure PartialLine where
  place : Place := .top
  /-- Settings with their values, the last one first. -/
  given : List (Setting × String) := []
  /-- The settings given at this place. -/
  givenHere : List Setting := []

namespace PartialLine

/-- Whether a value can be used. Accounts and canonical tables have numbers. -/
def accepts (line : PartialLine) (setting : Setting) (value : String) : Bool :=
  match setting with
  | .account => (wordOfText? value).isSome
  | .table => line.place != .inspectBridge || (int32OfText? value).isSome
  | _ => true

def give (line : PartialLine) (setting : Setting) (value : String) :
    Except LineError PartialLine :=
  if setting ∈ line.givenHere then .error (.repeated setting)
  else if line.accepts setting value then
    .ok { line with
      given := (setting, value) :: line.given
      givenHere := setting :: line.givenHere }
  else .error (.badValue setting value)

def value? (line : PartialLine) (setting : Setting) : Option String :=
  line.given.lookup setting

/-- A setting that a command cannot do without. -/
def required (line : PartialLine) (setting : Setting) : Except LineError String :=
  match line.value? setting with
  | some value => .ok value
  | none => .error (.missingSetting setting)

/-- The command at the end of the line. -/
def command (line : PartialLine) : Except LineError Command :=
  match line.place with
  | .top | .config | .inspect => .error .missingCommand
  | .start => .ok .start
  | .configValidate => .ok (.config .validate)
  | .configShow => .ok (.config (.display ((line.value? .format).getD "toml")))
  | .inspectScope => do
      return .inspect (.scope (← line.required .user) (line.value? .table))
  | .inspectChain => do
      let account ← line.required .account
      match wordOfText? account with
      | some number => return .inspect (.chain ⟨number⟩)
      | none => .error (.badValue .account account)
  | .inspectBridge => do
      return .inspect (.bridge (← line.required .version)
        ((line.value? .table).bind int32OfText?))

/-- The request at the end of the line. -/
def request (line : PartialLine) : Except LineError Request := do
  let unset : Invocation := { command := .start }
  return .run {
    configPath := (line.value? .config).getD unset.configPath
    overrides := { logLevel := line.value? .logLevel, metadataPath := line.value? .metadata }
    command := ← line.command }

/-- Help with the place that some words lead to. -/
def helpAt (line : PartialLine) (words : List String) : Except LineError Request :=
  match line.place.follow? words with
  | some place => .ok (.help place)
  | none => .error (.unexpected (" ".intercalate words))

/-- Read the arguments that are left. -/
def readOn (line : PartialLine) : List String → Except LineError Request
  | [] => line.request
  | argument :: rest =>
      match Argument.ofText argument with
      | .separator =>
          match rest with
          | [] => line.request
          | next :: _ => .error (.unexpected next)
      | .word word =>
          match line.place.branches.lookup word with
          | some place => readOn { line with place, givenHere := [] } rest
          | none =>
              if word = "help" ∧ line.place.branches ≠ [] then line.helpAt rest
              else .error (.unexpected word)
      | option =>
          match line.place.occurrence? option with
          | none => .error (.unexpected argument)
          | some .help => .ok (.help line.place)
          | some .version => .ok .version
          | some (.setting setting (some value)) =>
              match line.give setting value with
              | .ok line => readOn line rest
              | .error e => .error e
          | some (.setting setting none) =>
              match rest with
              | [] => .error (.missingValue setting)
              | value :: rest =>
                  if (Argument.ofText value).isWord then
                    match line.give setting value with
                    | .ok line => readOn line rest
                    | .error e => .error e
                  else .error (.missingValue setting)

end PartialLine

/-- Read a command line. -/
def Request.ofLine (arguments : List String) : Except LineError Request :=
  ({} : PartialLine).readOn arguments

end ControlPlane
