/-
# What can go wrong

One type holds every cause for which a request can fail. A client sees a code; a
caller that lacks access and a caller that asks for something that does not
exist get the same cause, so they cannot be told apart.
-/

import ControlPlane.Ids

namespace ControlPlane

/-- Which ordinal space a client ordinal belongs to. -/
inductive OrdinalKind
  | table
  | column
deriving DecidableEq

/-- How an ordinal space is named in a message. -/
def OrdinalKind.label : OrdinalKind → String
  | .table => "table ordinal"
  | .column => "column ordinal"

/-- Why the metadata could not be used. -/
inductive MetadataCause
  | storeUnavailable
  | duplicateVersion (token : String)
  | unknownVersion (token : String)
  | duplicateTable (table : Int32)
  | duplicateColumn (column : Int32) (tableName : String)
  | duplicateRule (table : String)
  | reported (text : String)
deriving DecidableEq

def MetadataCause.message : MetadataCause → String
  | .storeUnavailable => "metadata store unavailable"
  | .duplicateVersion token => "duplicate protocol version token " ++ token
  | .unknownVersion token => "descriptor references unknown version " ++ token
  | .duplicateTable table => s!"duplicate canonical table id {table.toInt}"
  | .duplicateColumn column tableName =>
      s!"duplicate canonical column id {column.toInt} in table {tableName}"
  | .duplicateRule table => "duplicate authorization rule for table " ++ table
  | .reported text => text

/-- Why a request failed. -/
inductive Fault
  | noAccess
  | ownershipCycle (account : AccountId)
  | chainTooDeep (account : AccountId) (maxDepth : Nat)
  | detachedAccount (account detached : AccountId)
  | protocolMismatch (version : String) (kind : OrdinalKind) (value : Int)
  | unknownProtocolVersion (version : String)
  | metadata (cause : MetadataCause)
  | invalidRequest (text : String)
  | internal (text : String)
deriving DecidableEq

namespace Fault

def message : Fault → String
  | .noAccess => "no access"
  | .ownershipCycle account => s!"ownership cycle detected starting at account {account}"
  | .chainTooDeep account maxDepth =>
      s!"ownership chain from account {account} exceeds {maxDepth} hops"
  | .detachedAccount account detached =>
      s!"account {detached} above account {account} has no parent but is not the root"
  | .protocolMismatch version kind value =>
      s!"protocol mismatch: {kind.label} {value} is not defined at version {version}"
  | .unknownProtocolVersion version => "unknown protocol version: " ++ version
  | .metadata cause => "metadata error: " ++ cause.message
  | .invalidRequest text => "invalid request: " ++ text
  | .internal text => "internal error: " ++ text

/-- The code a client is given. Every inconsistency of the platform's own data
shares one code. -/
def clientCode : Fault → String
  | .noAccess => "ENOACCESS"
  | .protocolMismatch .. | .unknownProtocolVersion _ => "EPROTO"
  | .invalidRequest _ => "EINVAL"
  | .metadata _ => "EAGAIN"
  | .ownershipCycle _ | .chainTooDeep .. | .detachedAccount .. | .internal _ => "EINTERNAL"

/-- Whether the platform's own data or logic is at fault. -/
def isInconsistency : Fault → Bool
  | .ownershipCycle _ | .chainTooDeep .. | .detachedAccount .. | .internal _ => true
  | _ => false

/-- Whether asking again may succeed: only the metadata store comes back. -/
def isRetriable : Fault → Bool
  | .metadata _ => true
  | _ => false

end Fault

end ControlPlane
