/-
# Status as data

What the parts of the platform say about themselves: instants and spans, recorded
metrics, probes, cache statistics, the replies of the gate and the tables of a view.
Most of these forms are only written.
-/

import ControlPlane.Access.Cache
import ControlPlane.Health
import ControlPlane.Metadata.Codec
import ControlPlane.Protocol.Catalog
import ControlPlane.Sync.Codec

namespace ControlPlane

/-- A span as its whole seconds and the nanoseconds left. -/
instance : ToDatum Duration :=
  ⟨fun d => .record [("secs", .of d.seconds), ("nanos", .of d.remainder)]⟩

/-- A span is read as a count of milliseconds, as its two parts, or as the longest one. -/
instance : OfDatum Duration where
  decoder
    | _, .text "max" => some .longest
    | format, .int millis => (Decoder.word format (.int millis)).map .ofMillis
    | format, datum => do
        let fields ← Fields.ofRecord? format datum
        Duration.ofParts? (← fields.required "secs" .word) (← fields.required "nanos" .word).toNat

instance : ToDatum Tick := ⟨fun t => .record [("ms", .of t.ms)]⟩

/-- An instant is read as its milliseconds. -/
instance : OfDatum Tick := ⟨fun format datum => (Decoder.word format datum).map Tick.mk⟩

instance : ToDatum Metrics := ⟨fun m => .of m.snapshot⟩

instance : ToDatum HealthStatus :=
  ⟨fun status => .record [("healthy", .of status.isHealthy), ("message", .of status.message)]⟩

instance : ToDatum ComponentHealth := ⟨fun health => .text health.label⟩

instance : OfDatum ComponentHealth :=
  ⟨fun format datum => (Decoder.text format datum).bind ComponentHealth.ofLabel?⟩

instance : ToDatum CacheStats :=
  ⟨fun stats => .record [("entries", .of stats.entries), ("by_class", .of stats.slotsByTag),
    ("hits", .of stats.hits), ("misses", .of stats.misses), ("evictions", .of stats.evictions)]⟩

instance : ToDatum GateReply where
  toDatum
    | .opened id => .record [("id", .of id), ("display", .text (connectionLabel id))]
    | .closed => .null
    | .issued ticket => .of ticket
    | .completed wasOutstanding => .of wasOutstanding
    | .advanced sequence => .of sequence
    | .drainEnded outcome => .of outcome

instance : ToDatum Enumeration :=
  ⟨fun e => .record [("ids", .of e.ids), ("len", .of e.size), ("is_empty", .of (e.size == 0))]⟩

end ControlPlane
