/-
# Configuration files

Configurations are read from TOML and shown as TOML. A file that is not there, a text that
is no configuration, and a configuration that is not accepted are reported differently.
-/

import ControlPlane.Config.Codec
import ControlPlane.Toml.Reader
import ControlPlane.Toml.Writer

namespace ControlPlane.Config

/-- A configuration from a text, read under a given context and then validated. -/
def readText (context text : String) : Except Report Config := do
  match Toml.readAs? Config.ofDatum? text with
  | none => .error [.stated context, .unreadableText]
  | some config => do
      config.validate.mapError ConfigError.report
      return config

/-- A configuration from a TOML text. -/
def ofToml (text : String) : Except Report Config :=
  readText "failed to parse config" text

/-- A configuration from a file with given content, if it can be read. -/
def ofFile (path : String) (content : Option String) : Except Report Config :=
  match content with
  | none => .error [.stated ("failed to read config file: " ++ path), .unreadableFile]
  | some text => readText "failed to parse config file" text

/-- A configuration after overriding some of its settings, validated again. -/
def overridden (config : Config) (overrides : ConfigOverrides) : Except ConfigError Config := do
  let config := config.override overrides
  config.validate
  return config

/-- A word as a TOML integer, which must fit a signed 64-bit word. -/
def integer? (value : UInt64) : Option String :=
  if FitsInt64 value.toNat then some (toString value.toNat) else none

/-- The configuration as a TOML text, with every setting except an unset maximal age. There
is none if a number is too large. -/
def toToml? (config : Config) : Option String := do
  let ttl ← integer? config.cache.ttlSeconds
  let maxAge ← config.cache.maxAgeSeconds.mapM integer?
  let sweepInterval ← integer? config.cache.sweepIntervalSeconds
  let drainTimeout ← integer? config.drainTimeoutSeconds
  return "[cache]\n"
    ++ Toml.entryLine "ttl_seconds" ttl
    ++ (maxAge.map (Toml.entryLine "max_age_seconds")).getD ""
    ++ Toml.entryLine "sweep_interval_seconds" sweepInterval
    ++ "\n[sync]\n"
    ++ Toml.entryLine "drain_timeout_seconds" drainTimeout
    ++ "\n[invalidation.tables]\n"
    ++ String.join (config.dependencies.toList.map fun entry =>
        Toml.entryLine entry.1 (Toml.textList entry.2))
    ++ "\n[telemetry]\n"
    ++ Toml.entryLine "log_level" (Toml.textValue config.logLevel)
    ++ "\n[paths]\n"
    ++ Toml.entryLine "metadata" (Toml.textValue config.metadataPath)

end ControlPlane.Config
