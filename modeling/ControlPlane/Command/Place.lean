/-
# The tree of commands

Commands are reached by words; at every place of the tree some options may be given.
Three options hold for all commands and may be given at any place on the way.
-/

import ControlPlane.Command.Basic

namespace ControlPlane

/-- A setting that takes a value from the command line. -/
inductive Setting
  | config
  | logLevel
  | metadata
  | format
  | user
  | table
  | account
  | version
deriving DecidableEq

namespace Setting

/-- The name after two dashes. -/
def name : Setting → String
  | .config => "config"
  | .logLevel => "log-level"
  | .metadata => "metadata"
  | .format => "format"
  | .user => "user"
  | .table => "table"
  | .account => "account"
  | .version => "version"

/-- The letter after one dash. -/
def letter? : Setting → Option Char
  | .config => some 'c'
  | .user => some 'u'
  | .table => some 't'
  | .account => some 'a'
  | .version => some 'v'
  | .logLevel | .metadata | .format => none

/-- The settings that hold for every command. -/
def shared : List Setting := [.config, .logLevel, .metadata]

end Setting

/-- A place in the tree of commands. -/
inductive Place
  | top
  | start
  | config
  | configValidate
  | configShow
  | inspect
  | inspectScope
  | inspectChain
  | inspectBridge
deriving DecidableEq

namespace Place

/-- The words that lead on from a place. -/
def branches : Place → List (String × Place)
  | .top => [("start", .start), ("config", .config), ("inspect", .inspect)]
  | .config => [("validate", .configValidate), ("show", .configShow)]
  | .inspect => [("scope", .inspectScope), ("chain", .inspectChain), ("bridge", .inspectBridge)]
  | _ => []

/-- The words that lead to a place. -/
def path : Place → List String
  | .top => []
  | .start => ["start"]
  | .config => ["config"]
  | .configValidate => ["config", "validate"]
  | .configShow => ["config", "show"]
  | .inspect => ["inspect"]
  | .inspectScope => ["inspect", "scope"]
  | .inspectChain => ["inspect", "chain"]
  | .inspectBridge => ["inspect", "bridge"]

/-- The settings of one command only. -/
def ownSettings : Place → List Setting
  | .configShow => [.format]
  | .inspectScope => [.user, .table]
  | .inspectChain => [.account]
  | .inspectBridge => [.version, .table]
  | _ => []

/-- The settings that may be given at a place. -/
def settings (place : Place) : List Setting :=
  place.ownSettings ++ Setting.shared

/-- The place that the first of some words leads to, then the second, and so on. -/
def follow? (place : Place) : List String → Option Place
  | [] => some place
  | word :: rest => (place.branches.lookup word).bind fun next => next.follow? rest

theorem follow?_path (place : Place) : Place.top.follow? place.path = some place := by
  cases place <;> decide

end Place

end ControlPlane
