/-
# The sync gate

Every host has a lane: a sequence that only grows and the tickets that are still
outstanding. A drain waits until all tickets issued before it are observed or belong to
a closed connection. Tickets of closed connections are dropped by the next drain of
their host, not by the closing itself.

A drain that has to wait is a `Waiter`. It looks again whenever a step wakes its lane
and once more when its time is over.
-/

import ControlPlane.Ids
import ControlPlane.Metrics
import ControlPlane.Time

namespace ControlPlane

open Std (ExtTreeMap)

/-- A change notification that is yet to be observed. -/
structure SyncTicket where
  host : HostId
  sequence : UInt64
  connection : ConnectionId
deriving DecidableEq

/-- How a drain ended. -/
inductive DrainOutcome
  | drained
  | timedOut (pending : Nat)
deriving DecidableEq

/-- The state of one host. -/
structure Lane where
  lastIssued : UInt64 := 0
  /-- Outstanding tickets by sequence, each with the connection it was issued to. -/
  outstanding : ExtTreeMap UInt64 ConnectionId := ∅
deriving DecidableEq

/-- A client connection as the gate sees it. -/
structure Connection where
  isClosed : Bool := false
  /-- How many tickets the connection holds on each host; no count is zero. -/
  waiting : ExtTreeMap HostId Nat := ∅
deriving DecidableEq

/-- Lanes and connections. -/
structure Gate where
  defaultTimeout : Duration := .ofSeconds 60
  /-- Whether tickets and drains are counted in the metrics. -/
  isMetered : Bool := true
  lanes : ExtTreeMap HostId Lane := ∅
  connections : ExtTreeMap ConnectionId Connection := ∅
  nextConnection : UInt64 := 1
deriving DecidableEq

/-- A drain that waits for the tickets of a host up to a sequence. -/
structure Waiter where
  host : HostId
  snapshot : UInt64
deriving DecidableEq

/-- One ticket less on a host. -/
def Connection.release (connection : Connection) (host : HostId) : Connection :=
  { connection with
    waiting := connection.waiting.alter host fun count =>
      match count with
      | some (n + 2) => some (n + 1)
      | _ => none }

/-- How many outstanding tickets have a sequence up to a bound. -/
def Lane.pendingThrough (lane : Lane) (snapshot : UInt64) : Nat :=
  lane.outstanding.toList.countP fun ticket => ticket.1 ≤ snapshot

namespace Gate

def lane (g : Gate) (host : HostId) : Lane :=
  g.lanes.getD host {}

/-- How many tickets of a host are outstanding, those of closed connections included. -/
def outstanding (g : Gate) (host : HostId) : Nat :=
  (g.lane host).outstanding.size

/-- The last sequence issued for a host. -/
def lastIssued (g : Gate) (host : HostId) : UInt64 :=
  (g.lane host).lastIssued

def isClosed (g : Gate) (connection : ConnectionId) : Bool :=
  g.connections[connection]?.any (·.isClosed)

/-- The hosts on which a connection holds tickets, in their order. -/
def waitingHosts (g : Gate) (connection : ConnectionId) : List HostId :=
  (g.connections[connection]?.map (·.waiting.keys)).getD []

/-- Change the metrics if the gate is metered. -/
def meter (g : Gate) (m : Metrics) (change : Metrics → Metrics) : Metrics :=
  if g.isMetered then change m else m

/-- Register a connection under the next number. -/
def openConnection (g : Gate) : ConnectionId × Gate :=
  let id : ConnectionId := ⟨g.nextConnection⟩
  (id,
    { g with
      connections := g.connections.insert id {}
      nextConnection := g.nextConnection + 1 })

/-- Close a connection. Closing it again changes nothing. -/
def closeConnection (g : Gate) (connection : ConnectionId) : Gate :=
  { g with
    connections := g.connections.modify connection fun c =>
      if c.isClosed then c else { isClosed := true } }

/-- Issue the next ticket of a host to a connection. -/
def beginWait (g : Gate) (m : Metrics) (host : HostId) (connection : ConnectionId) :
    SyncTicket × Gate × Metrics :=
  let lane := g.lane host
  let sequence := lane.lastIssued + 1
  (⟨host, sequence, connection⟩,
    { g with
      connections := g.connections.modify connection fun c =>
        { c with waiting := c.waiting.alter host fun count => some (count.getD 0 + 1) }
      lanes := g.lanes.insert host
        { lastIssued := sequence, outstanding := lane.outstanding.insert sequence connection } },
    g.meter m fun m => (m.count Metrics.syncTicketsIssued 1).raise Metrics.syncOutstandingTickets)

/-- The connection to which the outstanding ticket of a number was issued. -/
def owner? (g : Gate) (host : HostId) (sequence : UInt64) : Option ConnectionId :=
  (g.lane host).outstanding[sequence]?

/-- Mark a ticket observed, and tell whether it was outstanding. The connection that is
debited is the one the ticket was issued to, whatever the given ticket names. -/
def complete (g : Gate) (m : Metrics) (ticket : SyncTicket) : Bool × Gate × Metrics :=
  match g.owner? ticket.host ticket.sequence with
  | none => (false, g, m)
  | some owner =>
      (true,
        { g with
          connections := g.connections.modify owner (·.release ticket.host)
          lanes := g.lanes.modify ticket.host fun lane =>
            { lane with outstanding := lane.outstanding.erase ticket.sequence } },
        g.meter m (·.lower Metrics.syncOutstandingTickets))

/-- Use up the next sequence of a host without issuing a ticket. -/
def advance (g : Gate) (host : HostId) : UInt64 × Gate :=
  let lane := g.lane host
  let sequence := lane.lastIssued + 1
  (sequence, { g with lanes := g.lanes.insert host { lane with lastIssued := sequence } })

/-- Advance several hosts in turn. -/
def advanceAll (g : Gate) : List HostId → List (HostId × UInt64) × Gate
  | [] => ([], g)
  | host :: rest =>
      let (sequence, g) := g.advance host
      let (sequences, g) := g.advanceAll rest
      ((host, sequence) :: sequences, g)

/-- Drop the tickets of a host whose connections are closed. -/
def releaseClosed (g : Gate) (m : Metrics) (host : HostId) : Gate × Metrics :=
  let lane := g.lane host
  let kept := lane.outstanding.filter fun _ owner => !g.isClosed owner
  ({ g with lanes := g.lanes.modify host fun lane => { lane with outstanding := kept } },
    g.meter m fun m =>
      (List.range (lane.outstanding.size - kept.size)).foldl
        (fun m _ => m.lower Metrics.syncOutstandingTickets) m)

/-- Drop the tickets of closed connections, then count those a waiter still waits for. -/
def reevaluate (g : Gate) (m : Metrics) (waiter : Waiter) : Nat × Gate × Metrics :=
  let (g, m) := g.releaseClosed m waiter.host
  ((g.lane waiter.host).pendingThrough waiter.snapshot, g, m)

/-- Begin a drain of a host: it has drained already, or there is a waiter. -/
def beginDrain (g : Gate) (m : Metrics) (host : HostId) : Option Waiter × Gate × Metrics :=
  if g.lanes.contains host then
    let m := g.meter m (·.count Metrics.syncDrainWaits 1)
    let waiter : Waiter := ⟨host, g.lastIssued host⟩
    let (pending, g, m) := g.reevaluate m waiter
    (if pending = 0 then none else some waiter, g, m)
  else (none, g, m)

/-- The time of a waiter is over. -/
def expireDrain (g : Gate) (m : Metrics) (waiter : Waiter) : DrainOutcome × Gate × Metrics :=
  let (pending, g, m) := g.reevaluate m waiter
  if pending = 0 then (.drained, g, m)
  else (.timedOut pending, g, g.meter m (·.count Metrics.syncDrainTimeouts 1))

/-- The time of a drain is over, which may have drained before. -/
def endDrain (g : Gate) (m : Metrics) : Option Waiter → DrainOutcome × Gate × Metrics
  | none => (.drained, g, m)
  | some waiter => g.expireDrain m waiter

/-- Drain a host while nothing else happens. -/
def awaitDrain (g : Gate) (m : Metrics) (host : HostId) : DrainOutcome × Gate × Metrics :=
  let (waiter, g, m) := g.beginDrain m host
  g.endDrain m waiter

/-- Let a drain that may still wait look again if its lane was woken. -/
def wake (g : Gate) (m : Metrics) (woken : List HostId) (waiter : Option Waiter) :
    Option Waiter × Gate × Metrics :=
  match waiter with
  | none => (none, g, m)
  | some waiter =>
      if woken.contains waiter.host then
        let (pending, g, m) := g.reevaluate m waiter
        (if pending = 0 then none else some waiter, g, m)
      else (some waiter, g, m)

end Gate

/-- One thing that can be done with a gate. -/
inductive GateStep
  | openConnection
  | closeConnection (connection : ConnectionId)
  | beginWait (host : HostId) (connection : ConnectionId)
  | complete (ticket : SyncTicket)
  | advance (host : HostId)
  | drain (host : HostId)
deriving DecidableEq

/-- What a step answers. -/
inductive GateReply
  | opened (connection : ConnectionId)
  | closed
  | issued (ticket : SyncTicket)
  | completed (wasOutstanding : Bool)
  | advanced (sequence : UInt64)
  | drainEnded (outcome : DrainOutcome)
deriving DecidableEq

namespace GateStep

def perform (g : Gate) (m : Metrics) : GateStep → GateReply × Gate × Metrics
  | openConnection =>
      let (id, g) := g.openConnection
      (.opened id, g, m)
  | closeConnection connection => (.closed, g.closeConnection connection, m)
  | beginWait host connection =>
      let (ticket, g, m) := g.beginWait m host connection
      (.issued ticket, g, m)
  | complete ticket =>
      let (wasOutstanding, g, m) := g.complete m ticket
      (.completed wasOutstanding, g, m)
  | advance host =>
      let (sequence, g) := g.advance host
      (.advanced sequence, g, m)
  | drain host =>
      let (outcome, g, m) := g.awaitDrain m host
      (.drainEnded outcome, g, m)

/-- The hosts whose lanes a step wakes. Closing wakes the lanes on which the connection
holds tickets; a drain wakes none. -/
def wakes (g : Gate) : GateStep → List HostId
  | openConnection => []
  | closeConnection connection =>
      if g.isClosed connection then []
      else (g.waitingHosts connection).filter fun host => g.lanes.contains host
  | beginWait host _ => [host]
  | complete ticket =>
      if (g.owner? ticket.host ticket.sequence).isSome then [ticket.host] else []
  | advance host => [host]
  | drain _ => []

/-- Take a step while a drain may still wait. -/
def performBeside (g : Gate) (m : Metrics) (waiter : Option Waiter) (step : GateStep) :
    (GateReply × Option Waiter) × Gate × Metrics :=
  let woken := step.wakes g
  let (reply, g, m) := step.perform g m
  let (waiter, g, m) := g.wake m woken waiter
  ((reply, waiter), g, m)

end GateStep

end ControlPlane
