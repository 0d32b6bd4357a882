/-
# Metrics

Counters only grow, gauges go both ways. Both are 64-bit words: additions wrap
around, and a gauge that is taken below zero stays at zero. A name appears in a
snapshot once something was recorded under it, so a counter that was never
touched is absent rather than zero.
-/

import ControlPlane.Order

namespace ControlPlane

open Std (ExtTreeMap)

/-- Values recorded by name. -/
structure Metrics where
  counters : ExtTreeMap String UInt64 := ∅
  gauges : ExtTreeMap String UInt64 := ∅
deriving DecidableEq

namespace Metrics

def cacheHits : String := "hostplane.cache.hits"

def cacheMisses : String := "hostplane.cache.misses"

def cacheEvictions : String := "hostplane.cache.evictions"

def syncAnnounces : String := "hostplane.sync.announces"

def syncTicketsIssued : String := "hostplane.sync.tickets_issued"

def syncDrainWaits : String := "hostplane.sync.drain_waits"

def syncDrainTimeouts : String := "hostplane.sync.drain_timeouts"

def syncOutstandingTickets : String := "hostplane.sync.outstanding_tickets"

def scopeInconsistencies : String := "hostplane.scope.inconsistencies"

/-- The value of a counter, zero if it was never touched. -/
def counter (m : Metrics) (name : String) : UInt64 :=
  m.counters.getD name 0

/-- The value of a gauge, zero if it was never touched. -/
def gauge (m : Metrics) (name : String) : UInt64 :=
  m.gauges.getD name 0

def count (m : Metrics) (name : String) (amount : UInt64) : Metrics :=
  { m with counters := m.counters.insert name (m.counter name + amount) }

def raise (m : Metrics) (name : String) : Metrics :=
  { m with gauges := m.gauges.insert name (m.gauge name + 1) }

/-- Take one off a gauge that exists and is above zero. -/
def lower (m : Metrics) (name : String) : Metrics :=
  { m with gauges := m.gauges.modify name fun value => if value = 0 then 0 else value - 1 }

/-! ### What is recorded -/

theorem counter_count (m : Metrics) (name other : String) (amount : UInt64) :
    (m.count name amount).counter other =
      if name = other then m.counter name + amount else m.counter other := by
  simp only [counter, count, ExtTreeMap.getD_insert, Std.LawfulEqOrd.compare_eq_iff_eq]

@[simp]
theorem gauge_count (m : Metrics) (name other : String) (amount : UInt64) :
    (m.count name amount).gauge other = m.gauge other := rfl

@[simp]
theorem counter_raise (m : Metrics) (name other : String) :
    (m.raise name).counter other = m.counter other := rfl

@[simp]
theorem gauge_raise_self (m : Metrics) (name : String) :
    (m.raise name).gauge name = m.gauge name + 1 := by
  simp [gauge, raise]

@[simp]
theorem counter_lower (m : Metrics) (name other : String) :
    (m.lower name).counter other = m.counter other := rfl

theorem gauge_lower_self (m : Metrics) (name : String) :
    (m.lower name).gauge name = if m.gauge name = 0 then 0 else m.gauge name - 1 := by
  simp only [gauge, lower, ExtTreeMap.getD_eq_getD_getElem?, ExtTreeMap.getElem?_modify_self]
  cases m.gauges[name]? <;> rfl

/-- Lowering a gauge stops at zero. -/
theorem toNat_gauge_lower (m : Metrics) (name : String) :
    ((m.lower name).gauge name).toNat = (m.gauge name).toNat - 1 := by
  rw [gauge_lower_self]
  split
  · next hzero => simp [hzero]
  · next hpositive =>
    have hne : (m.gauge name).toNat ≠ 0 := fun h => hpositive (UInt64.toNat.inj h)
    have hone : 1 ≤ m.gauge name := by
      rw [UInt64.le_iff_toNat_le]
      change 1 ≤ _
      omega
    rw [UInt64.toNat_sub_of_le _ _ hone]
    rfl

/-- Everything recorded, by name; a gauge hides a counter of its name. -/
def snapshot (m : Metrics) : ExtTreeMap String UInt64 :=
  m.gauges.toList.foldl (fun known entry => known.insert entry.1 entry.2) m.counters

/-- A metric's name in the text exposition format, where a dot is an underscore. -/
def exposedName (name : String) : String :=
  String.ofList (name.toList.map fun c => if c = '.' then '_' else c)

/-- The two lines that expose one metric: its type, then its value. -/
def exposedBlock (kind name : String) (value : UInt64) : String :=
  let exposed := exposedName name
  "# TYPE " ++ exposed ++ " " ++ kind ++ "\n" ++ exposed ++ " " ++ toString value.toNat

/-- One block for each counter, then one for each gauge. -/
def exposedBlocks (m : Metrics) : List String :=
  m.counters.toList.map (fun entry => exposedBlock "counter" entry.1 entry.2)
    ++ m.gauges.toList.map (fun entry => exposedBlock "gauge" entry.1 entry.2)

end Metrics

end ControlPlane
