/-
# Health

A probe of the running service is healthy or carries the reason why it is not.
Each component of the service passes through a life cycle of its own; the whole is
ready when all are healthy, and alive until the metadata or the master has failed.
-/

namespace ControlPlane

/-- The result of a probe. -/
inductive HealthStatus
  | healthy
  | unhealthy (reason : String)
deriving DecidableEq

namespace HealthStatus

def isHealthy : HealthStatus → Bool
  | .healthy => true
  | .unhealthy _ => false

def message : HealthStatus → String
  | .healthy => "OK"
  | .unhealthy reason => reason

end HealthStatus

/-- Where a component is in its life. -/
inductive ComponentHealth
  | starting
  | healthy
  | failed
  | stopping
  | stopped
deriving DecidableEq

namespace ComponentHealth

def label : ComponentHealth → String
  | .starting => "starting"
  | .healthy => "healthy"
  | .failed => "failed"
  | .stopping => "stopping"
  | .stopped => "stopped"

def all : List ComponentHealth := [.starting, .healthy, .failed, .stopping, .stopped]

/-- The state with a given label. -/
def ofLabel? (text : String) : Option ComponentHealth :=
  all.find? fun state => state.label == text

end ComponentHealth

/-- The state of every component. -/
structure ServiceHealth where
  metadata : ComponentHealth := .starting
  master : ComponentHealth := .starting
  sweeper : ComponentHealth := .starting
deriving DecidableEq

namespace ServiceHealth

/-- Whether requests can be served. -/
def isReady (health : ServiceHealth) : Bool :=
  health.metadata == .healthy && health.master == .healthy && health.sweeper == .healthy

/-- Whether neither the metadata nor the master has failed; the sweeper does not count. -/
def isAlive (health : ServiceHealth) : Bool :=
  health.metadata != .failed && health.master != .failed

end ServiceHealth

end ControlPlane
