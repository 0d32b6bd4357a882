/-
# Help

Each place in the tree of commands has a page: what it is for, how it is called, the
commands below it and the options that may be given there.
-/

import ControlPlane.Command.Place

namespace ControlPlane

/-- What a setting is for; the same name may serve two commands. -/
def Setting.about (place : Place) : Setting → String
  | .config => "Configuration file path"
  | .logLevel => "Log level (trace, debug, info, warn, error)"
  | .metadata => "Metadata snapshot path"
  | .format => "Output format (toml, json) [default: toml]"
  | .user => "Username"
  | .table =>
      if place = .inspectBridge then "Canonical table id whose columns to list"
      else "Table to authorize against; every rule when absent"
  | .account => "Account id"
  | .version => "Protocol version token"

/-- The name of the value of a setting. -/
def Setting.placeholder (setting : Setting) : String :=
  "<" ++ String.ofList (setting.name.toList.map fun c => if c = '-' then '_' else c.toUpper) ++ ">"

/-- What settings are sorted by: their letter, or their name if they have none. -/
def Setting.sortKey (setting : Setting) : String :=
  match setting.letter? with
  | some c => c.toString
  | none => setting.name

/-- Settings of a command and shared settings, taking turns. Of the two that take a turn
together the one that sorts first is shown first. -/
def Setting.interleaved : List Setting → List Setting → List Setting
  | own :: ownRest, shared :: sharedRest =>
      (if own.sortKey < shared.sortKey then [own, shared] else [shared, own])
        ++ interleaved ownRest sharedRest
  | own, [] => own
  | [], shared => shared

namespace Place

def about : Place → String
  | .top => "Control-plane master core for a multi-tenant hosting platform: tenant scopes, "
      ++ "access caching, change broadcast, and protocol-version bridging"
  | .start => "Start the Hostplane master"
  | .config => "Configuration operations"
  | .configValidate => "Validate configuration file"
  | .configShow => "Print configuration with defaults"
  | .inspect => "Inspect scopes, ownership chains and protocol views"
  | .inspectScope => "Show a user's identity and scope"
  | .inspectChain => "Show an account's ownership chain"
  | .inspectBridge => "Show the table (or column) enumeration of a protocol version"

/-- Entries in two columns. -/
def columns (entries : List (String × String)) : String :=
  let width := (entries.map fun entry => entry.1.length).foldl max 0
  String.join (entries.map fun (left, right) =>
    "  " ++ left ++ String.ofList (List.replicate (width - left.length + 2) ' ') ++ right ++ "\n")

/-- The settings without which a command does not work. -/
def requiredSettings (place : Place) : List Setting :=
  place.ownSettings.filter fun setting => [.user, .account, .version].contains setting

def usage (place : Place) : String :=
  let settings := place.requiredSettings.map fun s => " --" ++ s.name ++ " " ++ s.placeholder
  " ".intercalate ("hostplane" :: place.path) ++ " [OPTIONS]" ++ String.join settings
    ++ (if place.branches.isEmpty then "" else " <COMMAND>")

def settingEntry (place : Place) (setting : Setting) : String × String :=
  let letter :=
    match setting.letter? with
    | some c => String.ofList ['-', c, ',', ' ']
    | none => "    "
  (letter ++ "--" ++ setting.name ++ " " ++ setting.placeholder, setting.about place)

/-- The page of a place. -/
def help (place : Place) : String :=
  let commands := place.branches.map fun (word, next) => (word, next.about)
  let settings := Setting.interleaved place.ownSettings Setting.shared
  let options := settings.map place.settingEntry ++ [("-h, --help", "Print help")]
    ++ (if place = .top then [("-V, --version", "Print version")] else [])
  place.about ++ "\n\nUsage: " ++ place.usage ++ "\n\n"
    ++ (if commands.isEmpty then "" else
        "Commands:\n" ++ columns (commands ++
          [("help", "Print this message or the help of the given subcommand(s)")]) ++ "\n")
    ++ "Options:\n" ++ columns options

end Place

end ControlPlane
