/-
# Configurations as data

Sections and fields under the names they have in configuration files. Every section and
every field may be left out.
-/

import ControlPlane.Config.Basic
import ControlPlane.Datum.Decode

namespace ControlPlane.Config

/-- A section of fields in their declared order. -/
def readSection {α : Type} (declared : List String) (read : Fields → Option α) : Decoder α :=
  fun format datum => (Fields.ofDatum? declared format datum).bind read

def readCache : Decoder CacheConfig :=
  readSection ["ttl_seconds", "max_age_seconds", "sweep_interval_seconds"] fun fields => do
    let unset : CacheConfig := {}
    return {
      ttlSeconds := ← fields.defaulted "ttl_seconds" unset.ttlSeconds .word
      maxAgeSeconds := ← fields.optional "max_age_seconds" .word
      sweepIntervalSeconds := ←
        fields.defaulted "sweep_interval_seconds" unset.sweepIntervalSeconds .word }

def readDrainTimeout (unset : Config) : Decoder UInt64 :=
  readSection ["drain_timeout_seconds"] fun fields =>
    fields.defaulted "drain_timeout_seconds" unset.drainTimeoutSeconds .word

def readDependencies : Decoder (Std.ExtTreeMap String (List String)) :=
  readSection ["tables"] fun fields =>
    fields.defaulted "tables" ∅ (Decoder.map (.list .text))

def readLogLevel (unset : Config) : Decoder String :=
  readSection ["log_level"] fun fields => fields.defaulted "log_level" unset.logLevel .text

def readMetadataPath (unset : Config) : Decoder String :=
  readSection ["metadata"] fun fields => fields.defaulted "metadata" unset.metadataPath .text

/-- Read a configuration from data. -/
def ofDatum? : Decoder Config :=
  readSection ["cache", "sync", "invalidation", "telemetry", "paths"] fun fields => do
    let unset : Config := {}
    return {
      cache := ← fields.defaulted "cache" unset.cache readCache
      drainTimeoutSeconds := ←
        fields.defaulted "sync" unset.drainTimeoutSeconds (readDrainTimeout unset)
      dependencies := ← fields.defaulted "invalidation" ∅ readDependencies
      logLevel := ← fields.defaulted "telemetry" unset.logLevel (readLogLevel unset)
      metadataPath := ← fields.defaulted "paths" unset.metadataPath (readMetadataPath unset) }

/-- A configuration as data, with every field except an unset maximal age. -/
def toDatum (c : Config) : Datum :=
  .record [
    ("cache", .record (
      [("ttl_seconds", .ofWord c.cache.ttlSeconds)]
        ++ (c.cache.maxAgeSeconds.map fun maxAge => ("max_age_seconds", .ofWord maxAge)).toList
        ++ [("sweep_interval_seconds", .ofWord c.cache.sweepIntervalSeconds)])),
    ("sync", .record [("drain_timeout_seconds", .ofWord c.drainTimeoutSeconds)]),
    ("invalidation", .record [
      ("tables", .ofMap id (.ofList .text) c.dependencies)]),
    ("telemetry", .record [("log_level", .text c.logLevel)]),
    ("paths", .record [("metadata", .text c.metadataPath)])]

instance : OfDatum Config := ⟨ofDatum?⟩

instance : ToDatum Config := ⟨toDatum⟩

end ControlPlane.Config
