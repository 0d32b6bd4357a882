/-
# Host topology

A scoped operator sees the hosts assigned to it and their immediate relatives: the host
each fails over to, the hosts that fail over to it and, where a table asks for it, the
hosts that receive its backups. Relatives of relatives are not seen.
-/

import ControlPlane.Scope

namespace ControlPlane

open Std (ExtTreeSet)

/-- Failover and replication between hosts. -/
structure Topology where
  failoverParent : HostId → Option HostId
  failoverChildren : HostId → ExtTreeSet HostId
  replicationTargets : HostId → ExtTreeSet HostId

namespace Topology

/-- A host and its immediate relatives. -/
def relatives (t : Topology) (options : ScopeOptions) (host : HostId) : List HostId :=
  host :: (t.failoverParent host).toList ++ (t.failoverChildren host).toList
    ++ (if options.includeReplication then (t.replicationTargets host).toList else [])

/-- All assigned hosts and their immediate relatives. -/
def expand (t : Topology) (assigned : ExtTreeSet HostId) (options : ScopeOptions) :
    ExtTreeSet HostId :=
  ExtTreeSet.ofList (assigned.toList.flatMap (t.relatives options))

end Topology

end ControlPlane
