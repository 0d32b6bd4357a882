/-
# Configuration

What an operator of the platform can set, the values that hold where nothing is set, and
what makes a configuration acceptable. The first offence in a fixed order is reported.
An accepted configuration always yields its extra invalidation rules.
-/

import ControlPlane.Report
import ControlPlane.ResourceClass
import ControlPlane.Time

namespace ControlPlane

open Std (ExtTreeMap)

/-- How long derived data is kept, in seconds. -/
structure CacheConfig where
  ttlSeconds : UInt64 := 3600
  /-- The longest lifetime an entry can plausibly have left; the lifetime itself if unset. -/
  maxAgeSeconds : Option UInt64 := none
  /-- The time between two purges of expired data. -/
  sweepIntervalSeconds : UInt64 := 60
deriving DecidableEq

namespace CacheConfig

def ttl (c : CacheConfig) : Duration :=
  .ofSeconds c.ttlSeconds

def maxAge (c : CacheConfig) : Duration :=
  .ofSeconds (c.maxAgeSeconds.getD c.ttlSeconds)

def sweepInterval (c : CacheConfig) : Duration :=
  .ofSeconds c.sweepIntervalSeconds

end CacheConfig

structure Config where
  cache : CacheConfig := {}
  drainTimeoutSeconds : UInt64 := 60
  /-- Tags of the classes that depend on a table, beyond the built-in ones. -/
  dependencies : ExtTreeMap String (List String) := ∅
  logLevel : String := "info"
  metadataPath : String := "config/metadata.toml"
deriving DecidableEq

/-- Settings that replace those of a configuration. -/
structure ConfigOverrides where
  logLevel : Option String := none
  metadataPath : Option String := none

/-- Why a configuration is not accepted. -/
inductive ConfigError
  | zeroTtl
  | maxAgeBelowTtl (maxAge ttl : UInt64)
  | zeroSweepInterval
  | zeroDrainTimeout
  | longDrainTimeout
  | unnamedTable
  | badClass (table : String) (cause : Fault)
  | badLogLevel (level : String)
deriving DecidableEq

namespace ConfigError

def report : ConfigError → Report
  | .zeroTtl => .because "cache.ttl_seconds must be > 0"
  | .maxAgeBelowTtl maxAge ttl =>
      .because (s!"cache.max_age_seconds ({maxAge.toNat}) cannot be below "
        ++ s!"cache.ttl_seconds ({ttl.toNat})")
  | .zeroSweepInterval => .because "cache.sweep_interval_seconds must be > 0"
  | .zeroDrainTimeout => .because "sync.drain_timeout_seconds must be > 0"
  | .longDrainTimeout => .because "sync.drain_timeout_seconds must be at most 86400"
  | .unnamedTable => .because "invalidation.tables contains an empty table id"
  | .badClass table cause =>
      (Report.because cause.message).within
        s!"invalidation.tables.{table} has invalid resource class"
  | .badLogLevel level =>
      .because ("telemetry.log_level must be one of "
        ++ "[\"trace\", \"debug\", \"info\", \"warn\", \"error\"], got: " ++ level)

end ConfigError

namespace Config

/-- The longest drain timeout that can be set, in seconds. -/
def maxDrainTimeoutSeconds : UInt64 := 86400

def logLevels : List String := ["trace", "debug", "info", "warn", "error"]

def drainTimeout (c : Config) : Duration :=
  .ofSeconds c.drainTimeoutSeconds

def override (c : Config) (overrides : ConfigOverrides) : Config :=
  { c with
    logLevel := overrides.logLevel.getD c.logLevel
    metadataPath := overrides.metadataPath.getD c.metadataPath }

def validateCache (c : CacheConfig) : Except ConfigError Unit := do
  if c.ttlSeconds = 0 then throw .zeroTtl
  if let some maxAge := c.maxAgeSeconds then
    if maxAge < c.ttlSeconds then throw (.maxAgeBelowTtl maxAge c.ttlSeconds)
  if c.sweepIntervalSeconds = 0 then throw .zeroSweepInterval

def validateSync (c : Config) : Except ConfigError Unit := do
  if c.drainTimeoutSeconds = 0 then throw .zeroDrainTimeout
  if maxDrainTimeoutSeconds < c.drainTimeoutSeconds then throw .longDrainTimeout

/-- The table of a dependency is named and each of its tags is that of a class. -/
def validateDependency (table : String) (tags : List String) : Except ConfigError Unit := do
  if table.isEmpty then throw .unnamedTable
  tags.forM fun tag => do
    let _ ← (ResourceClass.ofTag tag).mapError (.badClass table)

def validate (c : Config) : Except ConfigError Unit := do
  validateCache c.cache
  c.validateSync
  c.dependencies.toList.forM fun entry => validateDependency entry.1 entry.2
  if !logLevels.contains c.logLevel then throw (.badLogLevel c.logLevel)

/-- The extra dependencies of each table. -/
def extraDependencies (c : Config) : Except Report (List (String × List ResourceClass)) :=
  c.dependencies.toList.mapM fun entry => do
    let classes ← (entry.2.mapM ResourceClass.ofTag).mapError fun cause =>
      (Report.because cause.message).within s!"invalid resource class for table {entry.1}"
    return (entry.1, classes)

end Config

end ControlPlane
