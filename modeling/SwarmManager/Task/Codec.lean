import SwarmManager.Service.Codec
import SwarmManager.Task.Basic

/-!
# Tasks in JSON

The records of a task, field by field, in the order in which they may be given as
an array.
-/

namespace SwarmManager

set_option autoImplicit false

open Json (Codec Layout Field)

namespace TaskState

/-- States as their names. -/
def codec : Codec TaskState := Codec.variants name all

end TaskState

namespace ContainerStatus

/-- Container statuses. -/
def codec : Codec ContainerStatus :=
  (Layout.field (.required "ContainerID" .string) .done).codec
    (fun (containerId, ()) => ⟨containerId⟩)
    (fun status => (status.containerId, ()))

end ContainerStatus

namespace TaskStatus

/-- Task statuses. -/
def codec : Codec TaskStatus :=
  (Layout.field (.required "Timestamp" Instant.codec) <|
    .field (.required "State" TaskState.codec) <|
    .field (.defaulted "Message" .string "") <|
    .field (.required "ContainerStatus" ContainerStatus.codec) <|
    .done).codec
    (fun (timestamp, state, message, containerStatus, ()) =>
      ⟨timestamp, state, message, containerStatus⟩)
    (fun status =>
      (status.timestamp, status.state, status.message, status.containerStatus, ()))

end TaskStatus

namespace Task

/-- Tasks. -/
def codec : Codec Task :=
  (Layout.field (.required "ID" .string) <|
    .field (.required "ServiceID" .string) <|
    .field (.required "NodeID" .string) <|
    .field (.optional "Slot" .uint64) <|
    .field (.required "Spec" TaskSpec.codec) <|
    .field (.required "Status" TaskStatus.codec) <|
    .field (.required "DesiredState" TaskState.codec) <|
    .field (.required "CreatedAt" Instant.codec) <|
    .done).codec
    (fun (id, serviceId, nodeId, slot, spec, status, desiredState, createdAt, ()) =>
      ⟨id, serviceId, nodeId, slot, spec, status, desiredState, createdAt⟩)
    (fun task => (task.id, task.serviceId, task.nodeId, task.slot, task.spec, task.status,
      task.desiredState, task.createdAt, ()))

end Task

end SwarmManager
