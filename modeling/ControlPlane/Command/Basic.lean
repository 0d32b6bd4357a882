/-
# Commands

What the command line can ask for: to start the service, to check or show a
configuration, or to inspect what a master would answer.
-/

import ControlPlane.Config.Basic

namespace ControlPlane

/-- What to do with a configuration. -/
inductive ConfigCommand
  | validate
  | display (format : String)
deriving DecidableEq

/-- What to ask a master. -/
inductive InspectCommand
  /-- The identity of a user and its filters, on one table or on all. -/
  | scope (username : String) (table : Option String)
  | chain (account : AccountId)
  /-- How a protocol version counts tables, or the columns of one table. -/
  | bridge (version : String) (table : Option Int32)
deriving DecidableEq

inductive Command
  | start
  | config (command : ConfigCommand)
  | inspect (command : InspectCommand)
deriving DecidableEq

/-- A command with the settings that hold for every command. -/
structure Invocation where
  configPath : String := "config/hostplane.toml"
  overrides : ConfigOverrides := {}
  command : Command

/-- The name of the program and its version. -/
def versionText : String := "hostplane 0.1.0\n"

end ControlPlane
