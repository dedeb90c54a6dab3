import SwarmManager.Instance.Basic
import SwarmManager.Time.Codec

/-!
# Instances in JSON

The records of an instance, field by field, in the order in which they may be
given as an array.
-/

namespace SwarmManager

set_option autoImplicit false

open Json (Codec Layout Field)

namespace ExposedPort

/-- Exposed ports, which have no fields. -/
def codec : Codec ExposedPort := Layout.done.codec (fun () => ⟨⟩) (fun _ => ())

end ExposedPort

namespace ContainerConfig

/-- Container configurations; every field may be left out. -/
def codec : Codec ContainerConfig :=
  (Layout.field (.defaulted "Entrypoint" (.list .string) []) <|
    .field (.defaulted "Cmd" (.list .string) []) <|
    .field (.defaulted "Env" (.list .string) []) <|
    .field (.defaulted "ExposedPorts" (.map ExposedPort.codec) .empty) <|
    .done).codec
    (fun (entrypoint, command, env, exposedPorts, ()) =>
      ⟨entrypoint, command, env, exposedPorts⟩)
    (fun config => (config.entrypoint, config.command, config.env, config.exposedPorts, ()))

end ContainerConfig

namespace PortBinding

/-- Port bindings. -/
def codec : Codec PortBinding :=
  (Layout.field (.required "HostIp" .string) <| .field (.required "HostPort" .string) <|
    .done).codec
    (fun (hostAddress, hostPort, ()) => ⟨hostAddress, hostPort⟩)
    (fun binding => (binding.hostAddress, binding.hostPort, ()))

end PortBinding

namespace HostConfig

/-- Host configurations. -/
def codec : Codec HostConfig :=
  (Layout.field (.defaulted "PortBindings" (.map (.list PortBinding.codec)) .empty) .done).codec
    (fun (portBindings, ()) => ⟨portBindings⟩)
    (fun config => (config.portBindings, ()))

end HostConfig

namespace ContainerState

/-- Container states. -/
def codec : Codec ContainerState :=
  (Layout.field (.required "Running" .bool) <|
    .field (.required "StartedAt" Instant.codec) <|
    .field (.required "Pid" .uint32) <|
    .field (.required "ExitCode" .int32) <|
    .done).codec
    (fun (isRunning, startedAt, processNumber, exitCode, ()) =>
      ⟨isRunning, startedAt, processNumber, exitCode⟩)
    (fun state => (state.isRunning, state.startedAt, state.processNumber, state.exitCode, ()))

end ContainerState

namespace ProcessInstance

/-- Instances. -/
def codec : Codec ProcessInstance :=
  (Layout.field (.required "ID" .string) <|
    .field (.required "Name" .string) <|
    .field (.required "Image" .string) <|
    .field (.required "Created" Instant.codec) <|
    .field (.required "Config" ContainerConfig.codec) <|
    .field (.required "HostConfig" HostConfig.codec) <|
    .field (.required "State" ContainerState.codec) <|
    .done).codec
    (fun (id, name, image, createdAt, config, hostConfig, state, ()) =>
      ⟨id, name, image, createdAt, config, hostConfig, state⟩)
    (fun process => (process.id, process.name, process.image, process.createdAt, process.config,
      process.hostConfig, process.state, ()))

end ProcessInstance

end SwarmManager
