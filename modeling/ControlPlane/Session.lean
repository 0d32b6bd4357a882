/-
# Sessions

A session belongs to a user who speaks one protocol version, and holds one connection.
The user's identity is looked up again for every request, so a session notices changes
once they are announced.
-/

import ControlPlane.Master

namespace ControlPlane

structure Session where
  username : String
  version : String
  connection : ConnectionId
deriving DecidableEq

namespace Session

/-- Open a session on a connection of its own. -/
def start (master : Master) (username version : String) : Session × Master :=
  let (connection, gate) := master.gate.openConnection
  ({ username, version, connection }, { master with gate })

def identity (session : Session) (env : Surroundings) (master : Master) :
    Except Fault Identity × Master :=
  master.resolveIdentity env session.username

/-- Resolve the session's identity, then go on with it. -/
def withIdentity {α : Type} (session : Session) (env : Surroundings) (master : Master)
    (next : Master → Identity → Except Fault α × Master) : Except Fault α × Master :=
  match session.identity env master with
  | (.error fault, master) => (.error fault, master)
  | (.ok identity, master) => next master identity

def authorize (session : Session) (env : Surroundings) (table : String) (master : Master) :
    Except Fault AccessScope × Master :=
  session.withIdentity env master fun master identity => master.authorize env identity table

def scopedQuery (session : Session) (env : Surroundings) (table : String) (master : Master) :
    Except Fault QueryScope × Master :=
  session.withIdentity env master fun master identity => master.scopedQuery env identity table

def rowCount (session : Session) (env : Surroundings) (table : String) (master : Master) :
    Except Fault UInt64 × Master :=
  session.withIdentity env master fun master identity => master.rowCount env identity table

/-- The table at a client's ordinal, and the filter on it. -/
def scopedQueryAt (session : Session) (env : Surroundings) (ordinal : Int32) (master : Master) :
    Except Fault (String × QueryScope) × Master :=
  match master.ask env (.requireTable session.version ordinal) with
  | (.error fault, master) => (.error fault, master)
  | (.ok canonical, master) =>
      match master.tableName env canonical with
      | (.error fault, master) => (.error fault, master)
      | (.ok none, master) =>
          (.error (.internal s!"table {canonical.toInt} has no name"), master)
      | (.ok (some table), master) =>
          match session.scopedQuery env table master with
          | (.error fault, master) => (.error fault, master)
          | (.ok query, master) => (.ok (table, query), master)

/-- Issue a ticket of a host to the session's connection. -/
def beginWait (session : Session) (host : HostId) (master : Master) : SyncTicket × Master :=
  let (ticket, gate, metrics) := master.gate.beginWait master.metrics host session.connection
  (ticket, { master with gate, metrics })

/-- Close the session's connection. -/
def close (session : Session) (master : Master) : Master :=
  { master with gate := master.gate.closeConnection session.connection }

end Session

end ControlPlane
