import SwarmManager.Service.Basic

/-!
# Tasks

A task is one running copy of a service: placed on a node, backed by an instance,
and carrying the task template that its service had when it was placed.
-/

namespace SwarmManager

set_option autoImplicit false

/-- How far a task has come. -/
inductive TaskState where
  | new
  | pending
  | assigned
  | ready
  | running
  | complete
  | shutdown
  | failed
  deriving DecidableEq, Inhabited

namespace TaskState

/-- The name of a state. -/
def name : TaskState → String
  | .new => "new"
  | .pending => "pending"
  | .assigned => "assigned"
  | .ready => "ready"
  | .running => "running"
  | .complete => "complete"
  | .shutdown => "shutdown"
  | .failed => "failed"

/-- All states in the order of a task's life. -/
def all : List TaskState :=
  [.new, .pending, .assigned, .ready, .running, .complete, .shutdown, .failed]

end TaskState

/-- The instance behind a task. -/
structure ContainerStatus where
  containerId : String
  deriving DecidableEq, Inhabited

/-- The status of a task. -/
structure TaskStatus where
  timestamp : Instant
  state : TaskState
  message : String
  containerStatus : ContainerStatus
  deriving DecidableEq

/-- One running copy of a service. -/
structure Task where
  id : String
  serviceId : String
  nodeId : String
  slot : Option UInt64
  spec : TaskSpec
  status : TaskStatus
  desiredState : TaskState
  createdAt : Instant
  deriving DecidableEq

namespace Task

/-- The task with an index, from zero, among those of a service, placed on a node
and backed by an instance.  The tasks of a global service have no slot. -/
def schedule (draw : Draw) (service : Service) (index : Nat) (nodeId containerId : String) :
    Task where
  id := draw.id
  serviceId := service.id
  nodeId := nodeId
  slot := if service.spec.isGlobal then none else some (UInt64.ofNat (index + 1))
  spec := service.spec.taskTemplate
  status := ⟨draw.instant, .ready, "", ⟨containerId⟩⟩
  desiredState := .ready
  createdAt := draw.instant

/-- The identifier of the instance behind the task. -/
def containerId (task : Task) : String := task.status.containerStatus.containerId

end Task

end SwarmManager
