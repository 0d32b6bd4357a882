/-
# Durations, instants and the clock

Cached data expires against a clock that callers set, so a reading may also lie
before an earlier one. Instants are milliseconds in a 64-bit word: adding a
duration saturates, moving the clock wraps around.
-/

namespace ControlPlane

/-- Nanoseconds in a second. -/
def nanosPerSecond : Nat := 1000000000

/-- Nanoseconds in a millisecond. -/
def nanosPerMilli : Nat := 1000000

/-- A span of time, counted in nanoseconds. Its seconds fit a 64-bit word. -/
structure Duration where
  nanos : Nat
  nanos_lt : nanos < UInt64.size * nanosPerSecond

namespace Duration

theorem ext {a b : Duration} (h : a.nanos = b.nanos) : a = b := by
  cases a; cases b; cases h; rfl

instance : DecidableEq Duration := fun a b =>
  if h : a.nanos = b.nanos then .isTrue (ext h) else .isFalse fun e => h (congrArg _ e)

/-- Whole seconds. -/
def ofSeconds (seconds : UInt64) : Duration where
  nanos := seconds.toNat * nanosPerSecond
  nanos_lt := Nat.mul_lt_mul_of_pos_right seconds.toNat_lt (by decide)

/-- Whole milliseconds. -/
def ofMillis (millis : UInt64) : Duration where
  nanos := millis.toNat * nanosPerMilli
  nanos_lt := Nat.lt_of_lt_of_le (Nat.mul_lt_mul_of_pos_right millis.toNat_lt (by decide))
    (Nat.mul_le_mul_left _ (by decide))

/-- Seconds and a remainder of nanoseconds, if the remainder is below a second. -/
def ofParts? (seconds : UInt64) (remainder : Nat) : Option Duration :=
  if h : remainder < nanosPerSecond then
    some {
      nanos := seconds.toNat * nanosPerSecond + remainder
      nanos_lt := by
        have hs : seconds.toNat + 1 ≤ UInt64.size := seconds.toNat_lt
        calc seconds.toNat * nanosPerSecond + remainder
            < seconds.toNat * nanosPerSecond + nanosPerSecond := by omega
          _ = (seconds.toNat + 1) * nanosPerSecond := by rw [Nat.add_mul, Nat.one_mul]
          _ ≤ UInt64.size * nanosPerSecond := Nat.mul_le_mul_right _ hs }
  else none

/-- The longest span. -/
def longest : Duration where
  nanos := UInt64.size * nanosPerSecond - 1
  nanos_lt := by decide

/-- The whole seconds of a span. -/
def seconds (d : Duration) : Nat :=
  d.nanos / nanosPerSecond

/-- What is left of a span after its whole seconds. -/
def remainder (d : Duration) : Nat :=
  d.nanos % nanosPerSecond

/-- The whole milliseconds of a span; a span too long for a word counts as the
largest word. -/
def millis (d : Duration) : UInt64 :=
  UInt64.ofNat (min (d.nanos / nanosPerMilli) (UInt64.size - 1))

end Duration

/-- An instant, in milliseconds. -/
structure Tick where
  ms : UInt64
deriving DecidableEq

namespace Tick

/-- The earliest instant. -/
def zero : Tick := ⟨0⟩

/-- The instant a span later, but never past the largest word. -/
def add (t : Tick) (d : Duration) : Tick :=
  ⟨UInt64.ofNat (min (t.ms.toNat + d.millis.toNat) (UInt64.size - 1))⟩

/-- The instant some milliseconds earlier, but never before zero. -/
def subMillis (t : Tick) (ms : UInt64) : Tick :=
  ⟨UInt64.ofNat (t.ms.toNat - ms.toNat)⟩

/-- Whether an instant lies strictly before a deadline. -/
def isBefore (t deadline : Tick) : Bool :=
  decide (t.ms.toNat < deadline.ms.toNat)

/-- Milliseconds left until a deadline, none once it has passed. -/
def millisUntil (t deadline : Tick) : UInt64 :=
  UInt64.ofNat (deadline.ms.toNat - t.ms.toNat)

/-- How an instant is shown to a reader. -/
def label (t : Tick) : String :=
  "Tick(" ++ toString t.ms.toNat ++ "ms)"

/-- The reading of a clock that has moved forward by a span; the word wraps around. -/
def advance (t : Tick) (d : Duration) : Tick :=
  ⟨t.ms + d.millis⟩

end Tick

end ControlPlane
