import SwarmManager.Node.Basic
import SwarmManager.Time.Codec

/-!
# Nodes in JSON

The records of a node, field by field, in the order in which they may be given as
an array.
-/

namespace SwarmManager

set_option autoImplicit false

open Json (Codec Layout Field)

namespace NodeRole

/-- The name of a role. -/
def name : NodeRole → String
  | .worker => "worker"
  | .manager => "manager"

/-- Roles as their names. -/
def codec : Codec NodeRole := Codec.variants name [.worker, .manager]

end NodeRole

namespace NodeState

/-- The name of a state. -/
def name : NodeState → String
  | .unknown => "unknown"
  | .down => "down"
  | .ready => "ready"
  | .disconnected => "disconnected"

/-- States as their names. -/
def codec : Codec NodeState := Codec.variants name [.unknown, .down, .ready, .disconnected]

end NodeState

namespace NodeAvailability

/-- The name of an availability. -/
def name : NodeAvailability → String
  | .active => "active"
  | .pause => "pause"
  | .drain => "drain"

/-- Availabilities as their names. -/
def codec : Codec NodeAvailability := Codec.variants name [.active, .pause, .drain]

end NodeAvailability

namespace NodeSpec

/-- Node specs; every field may be left out. -/
def codec : Codec NodeSpec :=
  (Layout.field (.defaulted "Name" .string "") <|
    .field (.defaulted "Labels" (.map .string) .empty) <|
    .field (.defaulted "Role" NodeRole.codec .worker) <|
    .field (.defaulted "Availability" NodeAvailability.codec .active) <|
    .done).codec
    (fun (name, labels, role, availability, ()) => ⟨name, labels, role, availability⟩)
    (fun spec => (spec.name, spec.labels, spec.role, spec.availability, ()))

end NodeSpec

namespace Platform

/-- Platforms. -/
def codec : Codec Platform :=
  (Layout.field (.required "Architecture" .string) <| .field (.required "OS" .string) <|
    .done).codec
    (fun (architecture, operatingSystem, ()) => ⟨architecture, operatingSystem⟩)
    (fun platform => (platform.architecture, platform.operatingSystem, ()))

end Platform

namespace Resources

/-- Resources. -/
def codec : Codec Resources :=
  (Layout.field (.required "NanoCPUs" .int64) <| .field (.required "MemoryBytes" .int64) <|
    .done).codec
    (fun (processorShares, memoryBytes, ()) => ⟨processorShares, memoryBytes⟩)
    (fun resources => (resources.processorShares, resources.memoryBytes, ()))

end Resources

namespace NodeDescription

/-- Node descriptions. -/
def codec : Codec NodeDescription :=
  (Layout.field (.required "Hostname" .string) <|
    .field (.required "Platform" Platform.codec) <|
    .field (.required "Resources" Resources.codec) <|
    .done).codec
    (fun (hostname, platform, resources, ()) => ⟨hostname, platform, resources⟩)
    (fun description =>
      (description.hostname, description.platform, description.resources, ()))

end NodeDescription

namespace NodeStatus

/-- Node statuses. -/
def codec : Codec NodeStatus :=
  (Layout.field (.required "State" NodeState.codec) <|
    .field (.defaulted "Message" .string "") <|
    .field (.required "Addr" .string) <|
    .done).codec
    (fun (state, message, address, ()) => ⟨state, message, address⟩)
    (fun status => (status.state, status.message, status.address, ()))

end NodeStatus

namespace ManagerStatus

/-- Manager statuses. -/
def codec : Codec ManagerStatus :=
  (Layout.field (.required "Leader" .bool) <|
    .field (.required "Reachability" .string) <|
    .field (.required "Addr" .string) <|
    .done).codec
    (fun (isLeader, reachability, address, ()) => ⟨isLeader, reachability, address⟩)
    (fun status => (status.isLeader, status.reachability, status.address, ()))

end ManagerStatus

namespace Node

/-- Nodes.  A node that is no manager has the manager status `null`. -/
def codec : Codec Node :=
  (Layout.field (.required "ID" .string) <|
    .field (.required "Spec" NodeSpec.codec) <|
    .field (.defaulted "Description" NodeDescription.codec {}) <|
    .field (.defaulted "Status" NodeStatus.codec {}) <|
    .field (.nullable "ManagerStatus" ManagerStatus.codec) <|
    .field (.required "CreatedAt" Instant.codec) <|
    .field (.required "UpdatedAt" Instant.codec) <|
    .done).codec
    (fun (id, spec, description, status, managerStatus, createdAt, updatedAt, ()) =>
      ⟨id, spec, description, status, managerStatus, createdAt, updatedAt⟩)
    (fun node => (node.id, node.spec, node.description, node.status, node.managerStatus,
      node.createdAt, node.updatedAt, ()))

end Node

end SwarmManager
