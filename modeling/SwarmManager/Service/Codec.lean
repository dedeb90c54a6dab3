import SwarmManager.Service.Basic
import SwarmManager.Time.Codec

/-!
# Services in JSON

The records of a service, field by field, in the order in which they may be given
as an array.
-/

namespace SwarmManager

set_option autoImplicit false

open Json (Codec Layout Field)

namespace ContainerSpec

/-- Container specs; every field may be left out. -/
def codec : Codec ContainerSpec :=
  (Layout.field (.defaulted "Image" .string "") <|
    .field (.defaulted "Labels" (.map .string) .empty) <|
    .field (.defaulted "Command" (.list .string) []) <|
    .field (.defaulted "Args" (.list .string) []) <|
    .field (.defaulted "Env" (.list .string) []) <|
    .field (.optional "Dir" .string) <|
    .field (.optional "User" .string) <|
    .done).codec
    (fun (image, labels, command, args, env, dir, user, ()) =>
      ⟨image, labels, command, args, env, dir, user⟩)
    (fun spec =>
      (spec.image, spec.labels, spec.command, spec.args, spec.env, spec.dir, spec.user, ()))

end ContainerSpec

namespace TaskSpec

/-- Task templates. -/
def codec : Codec TaskSpec :=
  (Layout.field (.optional "ContainerSpec" ContainerSpec.codec) .done).codec
    (fun (containerSpec, ()) => ⟨containerSpec⟩)
    (fun spec => (spec.containerSpec, ()))

end TaskSpec

namespace ReplicatedService

/-- Replicated modes. -/
def codec : Codec ReplicatedService :=
  (Layout.field (.optional "Replicas" .uint64) .done).codec
    (fun (replicas, ()) => ⟨replicas⟩)
    (fun service => (service.replicas, ()))

end ReplicatedService

namespace GlobalService

/-- Global modes, which have no fields. -/
def codec : Codec GlobalService := Layout.done.codec (fun () => ⟨⟩) (fun _ => ())

end GlobalService

namespace ServiceMode

/-- Service modes. -/
def codec : Codec ServiceMode :=
  (Layout.field (.optional "Replicated" ReplicatedService.codec) <|
    .field (.optional "Global" GlobalService.codec) <|
    .done).codec
    (fun (replicated, global, ()) => ⟨replicated, global⟩)
    (fun mode => (mode.replicated, mode.global, ()))

end ServiceMode

namespace PortConfig

/-- Port configurations; only the target port has to be given. -/
def codec : Codec PortConfig :=
  (Layout.field (.optional "Name" .string) <|
    .field (.optional "Protocol" .string) <|
    .field (.required "TargetPort" .uint16) <|
    .field (.optional "PublishedPort" .uint16) <|
    .field (.optional "PublishMode" .string) <|
    .done).codec
    (fun (name, protocol, targetPort, publishedPort, publishMode, ()) =>
      ⟨name, protocol, targetPort, publishedPort, publishMode⟩)
    (fun port =>
      (port.name, port.protocol, port.targetPort, port.publishedPort, port.publishMode, ()))

end PortConfig

namespace EndpointSpec

/-- Endpoint specs. -/
def codec : Codec EndpointSpec :=
  (Layout.field (.optional "Mode" .string) <|
    .field (.defaulted "Ports" (.list PortConfig.codec) []) <|
    .done).codec
    (fun (mode, ports, ()) => ⟨mode, ports⟩)
    (fun spec => (spec.mode, spec.ports, ()))

end EndpointSpec

namespace ServiceSpec

/-- Service specs; every field may be left out. -/
def codec : Codec ServiceSpec :=
  (Layout.field (.defaulted "Name" .string "") <|
    .field (.defaulted "Labels" (.map .string) .empty) <|
    .field (.defaulted "TaskTemplate" TaskSpec.codec {}) <|
    .field (.optional "Mode" ServiceMode.codec) <|
    .field (.optional "EndpointSpec" EndpointSpec.codec) <|
    .done).codec
    (fun (name, labels, taskTemplate, mode, endpointSpec, ()) =>
      ⟨name, labels, taskTemplate, mode, endpointSpec⟩)
    (fun spec => (spec.name, spec.labels, spec.taskTemplate, spec.mode, spec.endpointSpec, ()))

end ServiceSpec

namespace ServiceVersion

/-- Service versions. -/
def codec : Codec ServiceVersion :=
  (Layout.field (.required "Index" .uint64) .done).codec
    (fun (index, ()) => ⟨index⟩)
    (fun version => (version.index, ()))

end ServiceVersion

namespace Service

/-- Services. -/
def codec : Codec Service :=
  (Layout.field (.required "ID" .string) <|
    .field (.required "Spec" ServiceSpec.codec) <|
    .field (.required "Version" ServiceVersion.codec) <|
    .field (.required "CreatedAt" Instant.codec) <|
    .field (.required "UpdatedAt" Instant.codec) <|
    .done).codec
    (fun (id, spec, version, createdAt, updatedAt, ()) =>
      ⟨id, spec, version, createdAt, updatedAt⟩)
    (fun service =>
      (service.id, service.spec, service.version, service.createdAt, service.updatedAt, ()))

end Service

end SwarmManager
