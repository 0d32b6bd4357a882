/-
# Running commands

A command looks at files, asks the library and prints, or fails with a report. How files
are looked at is a parameter, so that a command runs over a directory in memory just as
it does over a file system.
-/

import ControlPlane.Command.Basic
import ControlPlane.Command.Files
import ControlPlane.Service

namespace ControlPlane

/-- What became of a command. -/
inductive Outcome
  | printed (text : String)
  | failed (report : Report)
  /-- The service runs. -/
  | serving (service : Service)

variable {m : Type → Type} [Monad m]

/-- The configuration of a file after overriding some of its settings. -/
def loadConfig (look : String → m PathState) (path : String) (overrides : ConfigOverrides) :
    ExceptT Report m Config := do
  let state ← look path
  let config ← ExceptT.mk (pure (inContext ("failed to load config from " ++ quotedPath path)
    (Config.ofFile path state.text?)))
  ExceptT.mk (pure (inContext "invalid configuration after overrides"
    ((config.overridden overrides).mapError ConfigError.report)))

namespace ConfigCommand

/-- What checking a configuration prints. -/
def validationText (config : Config) (metadata : PathState) : String :=
  let extra := config.dependencies.size
  "✓ Config file is valid\n"
    ++ (if extra = 0 then "" else s!"  {extra} extra invalidation rule(s)\n")
    ++ (if metadata.isPresent then ""
        else "  ⚠ Warning: metadata file not found: " ++ config.metadataPath ++ "\n")
    ++ "✓ Configuration validation complete\n"

/-- A configuration in a format; any format but JSON is TOML. -/
def displayText (config : Config) (format : String) : Except Report String :=
  if format = "json" then .ok (Json.prettyText config.toDatum ++ "\n")
  else
    match config.toToml? with
    | some text => .ok text
    | none => .error (.because "a number is too large for TOML")

def run (look : String → m PathState) (path : String) :
    ConfigCommand → ExceptT Report m String
  | .validate => do
      let state ← look path
      if !state.isPresent then throw (.because ("Config file not found: " ++ quotedPath path))
      let config ← ExceptT.mk (pure (Config.ofFile path state.text?))
      return validationText config (← look config.metadataPath)
  | .display format => do
      let state ← look path
      let config ←
        if state.isPresent then ExceptT.mk (pure (Config.ofFile path state.text?)) else pure {}
      ExceptT.mk (pure (displayText config format))

end ConfigCommand

namespace InspectCommand

/-- A result of the master, its failure in a context. -/
def orReport {α : Type} (context : String) (result : Except Fault α) : Except Report α :=
  inContext context (result.mapError fun fault => .because fault.message)

/-- The filters of an identity on some tables, or the code it is refused with. -/
def filters (env : Surroundings) (identity : Identity) (master : Master) :
    List String → List (String × Datum)
  | [] => []
  | table :: rest =>
      let (result, master) := master.scopedQuery env identity table
      let entry :=
        match result with
        | .ok query => query.toDatum
        | .error fault => .record [("error", .text fault.clientCode)]
      (table, entry) :: filters env identity master rest

def scopeReport (env : Surroundings) (master : Master) (username : String)
    (table : Option String) : Except Report Datum := do
  let (result, master) := master.resolveIdentity env username
  let identity ← orReport ("failed to resolve user " ++ username) result
  let tables :=
    match table with
    | some table => [table]
    | none => master.rules.toList.map (·.table)
  return .record [("identity", identity.toDatum),
    ("tables", .record (filters env identity master tables))]

def chainReport (env : Surroundings) (master : Master) (account : AccountId) :
    Except Report Datum := do
  let chain ← orReport ("failed to walk ownership chain of " ++ account.text)
    (master.ownershipChain env account).1
  return chain.toDatum

/-- The ids that a view counts: its tables, or the columns of one of them. -/
def countedIds (view : View) : Option Int32 → Except Report (List Int32)
  | none => .ok view.tables.ids
  | some table =>
      match view.columns[table]? with
      | some columns => .ok columns.ids
      | none =>
          .error (.because s!"table {table.toInt} does not exist at version {view.version.token}")

def bridgeReport (env : Surroundings) (master : Master) (version : String)
    (table : Option Int32) : Except Report Datum := do
  let view ← orReport ("failed to build view for protocol version " ++ version)
    (master.ask env (.whole version)).1
  let ids ← countedIds view table
  return .record [("version", view.version.toDatum), ("table", .of table),
    ("unmapped", .of unmapped),
    ("ordinals", .list (ids.zipIdx.map fun (id, ordinal) =>
      .record [("ordinal", .of ordinal), ("canonical", .of id)]))]

/-- What a master over a store answers. -/
def report (config : Config) (store : Store) (command : InspectCommand) :
    Except Report Datum := do
  let master ← Master.create config store.rules
  let env : Surroundings := ⟨store, .zero⟩
  match command with
  | .scope username table => scopeReport env master username table
  | .chain account => chainReport env master account
  | .bridge version table => bridgeReport env master version table

def run (look : String → m PathState) (config : Config) (command : InspectCommand) :
    ExceptT Report m String := do
  let state ← look config.metadataPath
  let store ← ExceptT.mk (pure (Store.ofFile config.metadataPath state.text?))
  let report ← ExceptT.mk (pure (command.report config store))
  return Json.prettyText report.sortFields ++ "\n"

end InspectCommand

/-- Start the service. -/
def runService (look : String → m PathState) (config : Config) : ExceptT Report m Outcome := do
  let service ← ExceptT.mk (pure (Service.create config))
  let state ← look config.metadataPath
  match service.run state.text? with
  | (some (.error report), _) => throw report
  | (some (.ok ()), _) => return .printed ""
  | (none, service) => return .serving service

namespace Invocation

def runTo (look : String → m PathState) (invocation : Invocation) : ExceptT Report m Outcome := do
  match invocation.command with
  | .config command => return .printed (← command.run look invocation.configPath)
  | .inspect command =>
      let config ← loadConfig look invocation.configPath invocation.overrides
      return .printed (← command.run look config)
  | .start => runService look (← loadConfig look invocation.configPath invocation.overrides)

def run (look : String → m PathState) (invocation : Invocation) : m Outcome := do
  match ← (invocation.runTo look).run with
  | .ok outcome => return outcome
  | .error report => return .failed report

end Invocation

end ControlPlane
