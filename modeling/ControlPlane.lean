import ControlPlane.Main
import ControlPlane.Status
import ControlPlane.Proofs.Access.Ancestry
import ControlPlane.Proofs.Access.Expansion
import ControlPlane.Proofs.Cache.Accounting
import ControlPlane.Proofs.Cache.Alone
import ControlPlane.Proofs.Cache.Expiry
import ControlPlane.Proofs.Cache.Invalidation
import ControlPlane.Proofs.Cache.PlainMap
import ControlPlane.Proofs.Cache.Purging
import ControlPlane.Proofs.Cache.Sweeping
import ControlPlane.Proofs.Master.ByOrdinal
import ControlPlane.Proofs.Master.CountSharing
import ControlPlane.Proofs.Master.Dependencies
import ControlPlane.Proofs.Master.Freshness
import ControlPlane.Proofs.Master.Refusal
import ControlPlane.Proofs.Master.Revocation
import ControlPlane.Proofs.Master.RowVisibility
import ControlPlane.Proofs.Master.Staleness
import ControlPlane.Proofs.Metadata.Acceptance
import ControlPlane.Proofs.Metadata.Consistency
import ControlPlane.Proofs.Metadata.Criterion
import ControlPlane.Proofs.Metadata.RoundTrip
import ControlPlane.Proofs.Protocol.Generations
import ControlPlane.Proofs.Protocol.Insertion
import ControlPlane.Proofs.Protocol.Overtaking
import ControlPlane.Proofs.Protocol.Renaming
import ControlPlane.Proofs.Protocol.Sentinel
import ControlPlane.Proofs.Protocol.Views
import ControlPlane.Proofs.Sync.Announcing
import ControlPlane.Proofs.Sync.Conservation
import ControlPlane.Proofs.Sync.Independence
import ControlPlane.Proofs.Sync.Leftovers
import ControlPlane.Proofs.Sync.Observed
import ControlPlane.Proofs.Sync.Wakeups
