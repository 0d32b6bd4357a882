/-
# The protocol bridge

Carries what a client of some version counts over to canonical ids and back. A version
that nobody knows has no counterpart for anything, which is an answer and not a failure,
except where a caller insists on a mapping or on the whole view.
-/

import ControlPlane.Protocol.Lookup
import ControlPlane.ResourceClass

namespace ControlPlane

/-- A question about one version: what to make of its view. -/
structure VersionQuery (α : Type) where
  version : String
  answer : Except Fault View → Except Fault α

namespace VersionQuery

/-- The view itself. -/
def whole (version : String) : VersionQuery View :=
  ⟨version, id⟩

/-- Something read off the view, with nothing to be found at an unknown version. -/
def readOff (version : String) (read : View → Int32) : VersionQuery Int32 where
  version
  answer
    | .ok view => .ok (read view)
    | .error (.unknownProtocolVersion _) => .ok unmapped
    | .error fault => .error fault

/-- The same question, refusing an ordinal without a counterpart. -/
def insist (kind : OrdinalKind) (ordinal : Int32) (query : VersionQuery Int32) :
    VersionQuery Int32 where
  version := query.version
  answer view :=
    match query.answer view with
    | .ok id =>
        if id = unmapped then .error (.protocolMismatch query.version kind ordinal.toInt)
        else .ok id
    | .error fault => .error fault

/-- The canonical table at a client's ordinal. -/
def tableToCanonical (version : String) (ordinal : Int32) : VersionQuery Int32 :=
  readOff version fun view => view.tables.toCanonical ordinal

/-- A client's ordinal of a canonical table. -/
def tableToOrdinal (version : String) (table : Int32) : VersionQuery Int32 :=
  readOff version fun view => view.tables.toOrdinal table

/-- The canonical column at a client's ordinal in a canonical table. -/
def columnToCanonical (version : String) (table ordinal : Int32) : VersionQuery Int32 :=
  readOff version fun view =>
    match view.columns[table]? with
    | some columns => columns.toCanonical ordinal
    | none => unmapped

/-- A client's ordinal of a canonical column in a canonical table. -/
def columnToOrdinal (version : String) (table column : Int32) : VersionQuery Int32 :=
  readOff version fun view =>
    match view.columns[table]? with
    | some columns => columns.toOrdinal column
    | none => unmapped

/-- The canonical table at a client's ordinal, which must exist. -/
def requireTable (version : String) (ordinal : Int32) : VersionQuery Int32 :=
  (tableToCanonical version ordinal).insist .table ordinal

/-- The canonical column at a client's ordinal in a canonical table, which must exist. -/
def requireColumn (version : String) (table ordinal : Int32) : VersionQuery Int32 :=
  (columnToCanonical version table ordinal).insist .column ordinal

end VersionQuery

namespace Bridge

/-- The name under which the bridge is invalidated. -/
def cacheName : String := "protocol-bridge"

/-- Answer a question about a version, building its view if need be. -/
def ask {α : Type} (registry : Registry) (query : VersionQuery α) (bridge : Bridge) :
    Except Fault α × Bridge :=
  let (view, bridge) := bridge.runView registry query.version .find
  (query.answer view, bridge)

/-- The name of a canonical table, if the registry has it. -/
def tableName (registry : Registry) (table : Int32) (bridge : Bridge) :
    Except Fault (Option String) × Bridge :=
  match bridge.runCatalog registry .find with
  | (.ok catalog, bridge) => (.ok (catalog.tableName? table), bridge)
  | (.error fault, bridge) => (.error fault, bridge)

/-- Drop everything if descriptors are concerned; tell how many views were dropped. -/
def invalidate (bridge : Bridge) (cls : ResourceClass) : Nat × Bridge :=
  if cls = .protocolMetadata then bridge.reset else (0, bridge)

end Bridge

end ControlPlane
