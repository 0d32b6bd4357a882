/-
# Events, tickets and receipts as data
-/

import ControlPlane.Datum.Decode
import ControlPlane.Sync.Broadcast

namespace ControlPlane

namespace InvalidationEvent

def ofDatum? : Decoder InvalidationEvent := fun format datum => do
  let fields ← Fields.ofDatum? ["table", "owner_accounts", "affected_hosts"] format datum
  return {
    table := ← fields.required "table" .text
    ownerAccounts := ← fields.defaulted "owner_accounts" ∅ (Decoder.set .id)
    affectedHosts := ← fields.defaulted "affected_hosts" ∅ (Decoder.set .id) }

def toDatum (event : InvalidationEvent) : Datum :=
  .record [("table", .text event.table), ("owner_accounts", .ofSet .ofId event.ownerAccounts),
    ("affected_hosts", .ofSet .ofId event.affectedHosts)]

instance : OfDatum InvalidationEvent := ⟨ofDatum?⟩

instance : ToDatum InvalidationEvent := ⟨toDatum⟩

end InvalidationEvent

/-- A class is written as its tag. -/
instance : ToDatum ResourceClass := ⟨fun cls => .text cls.tag⟩

def SyncTicket.toDatum (ticket : SyncTicket) : Datum :=
  .record [("host", .ofId ticket.host), ("sequence", .ofWord ticket.sequence),
    ("connection", .ofId ticket.connection)]

def DrainOutcome.toDatum : DrainOutcome → Datum
  | .drained => .record [("outcome", .text "drained")]
  | .timedOut pending => .record [("outcome", .text "timed-out"), ("pending", .ofCount pending)]

def AnnounceReceipt.toDatum (receipt : AnnounceReceipt) : Datum :=
  .record [("classes", .ofList .text receipt.classes), ("evicted", .ofCount receipt.evicted),
    ("host_sequences", .ofMap Id.text .ofWord receipt.hostSequences)]

instance : ToDatum SyncTicket := ⟨SyncTicket.toDatum⟩

instance : ToDatum DrainOutcome := ⟨DrainOutcome.toDatum⟩

instance : ToDatum AnnounceReceipt := ⟨AnnounceReceipt.toDatum⟩

end ControlPlane
