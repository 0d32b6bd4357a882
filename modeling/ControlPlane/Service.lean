/-
# The running service

The service loads the metadata, sets up the master and then purges it at intervals. Each
of the three parts has a state that a probe shows. A service that was asked to shut down
stays so: started again, its purging ends at once but its parts still count as healthy.
-/

import ControlPlane.Config.File
import ControlPlane.Metadata.File
import ControlPlane.Session

namespace ControlPlane

/-- A master together with the store it was set up over. -/
structure ServedMaster where
  store : Store
  master : Master

structure Service where
  config : Config
  served : Option ServedMaster := none
  health : ServiceHealth := {}
  isRunning : Bool := false
  shutdownRequested : Bool := false

namespace Service

/-- A service that is not started yet. -/
def create (config : Config) : Except Report Service := do
  inContext "invalid configuration" (config.validate.mapError ConfigError.report)
  return { config }

/-- Start over a store. -/
def startWith (service : Service) (store : Store) : Except Report Unit × Service :=
  let service := { service with health := { service.health with metadata := .healthy } }
  match inContext "failed to build master" (Master.create service.config store.rules) with
  | .error report => (.error report, service)
  | .ok master =>
      (.ok (),
        { service with
          served := some { store, master }
          health := { service.health with master := .healthy, sweeper := .healthy }
          isRunning := true })

/-- Start over the configured metadata file with given content, if it can be read. -/
def start (service : Service) (content : Option String) : Except Report Unit × Service :=
  match Store.ofFile service.config.metadataPath content with
  | .error report =>
      (.error report, { service with health := { service.health with metadata := .failed } })
  | .ok store => service.startWith store

/-- Drop the expired data of the master. -/
def sweep (service : Service) (now : Tick) : Service :=
  { service with
    served := service.served.map fun served =>
      { served with master := (served.master.purge now).2 } }

/-- Ask the service to shut down. -/
def shutdown (service : Service) : Service :=
  { service with shutdownRequested := true }

/-- Stop all parts, in the reverse order of starting. -/
def stop (service : Service) : Service :=
  { service with
    served := none
    health := { service.health with master := .stopped, sweeper := .stopped }
    isRunning := false
    shutdownRequested := true }

/-- Start and, if a shutdown was requested, stop again. There is no result while the
service still waits for a shutdown. -/
def run (service : Service) (content : Option String) : Option (Except Report Unit) × Service :=
  match service.start content with
  | (.error report, service) => (some (.error report), service)
  | (.ok (), service) =>
      if service.shutdownRequested then (some (.ok ()), service.stop) else (none, service)

/-- The identity of a username, if there is a master to ask. -/
def resolveIdentity (service : Service) (now : Tick) (username : String) :
    Option (Except Fault Identity) × Service :=
  match service.served with
  | none => (none, service)
  | some served =>
      let (result, master) := served.master.resolveIdentity ⟨served.store, now⟩ username
      (some result, { service with served := some { served with master } })

/-- Probe the store of the master. -/
def probe (service : Service) : HealthStatus :=
  match service.served with
  | some served => served.store.health
  | none => .unhealthy "master not started"

end Service

end ControlPlane
