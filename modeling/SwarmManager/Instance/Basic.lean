import SwarmManager.Service.Basic

/-!
# Process instances

An instance is the simulated container behind a task.  It runs nothing; it
carries what a client expects to see when it inspects a container.

The ports that a service publishes become keys of two maps, the exposed ports and
the port bindings.  `portKey` writes such a key, a port and a protocol.
-/

namespace SwarmManager

set_option autoImplicit false

/-! ## Configuration -/

/-- The mark of an exposed port. -/
structure ExposedPort where
  deriving DecidableEq, Inhabited

/-- What an instance runs. -/
structure ContainerConfig where
  entrypoint : List String := []
  command : List String := []
  env : List String := []
  exposedPorts : StringMap ExposedPort := .empty
  deriving DecidableEq, Inhabited

/-- The place on the host that a port is published at. -/
structure PortBinding where
  hostAddress : String
  hostPort : String
  deriving DecidableEq, Inhabited

/-- What an instance takes up on its host. -/
structure HostConfig where
  portBindings : StringMap (List PortBinding) := .empty
  deriving DecidableEq, Inhabited

/-- Whether and since when an instance runs. -/
structure ContainerState where
  isRunning : Bool
  startedAt : Instant
  processNumber : UInt32
  exitCode : Int32
  deriving DecidableEq

/-- The simulated container behind a task. -/
structure ProcessInstance where
  id : String
  name : String
  image : String
  createdAt : Instant
  config : ContainerConfig
  hostConfig : HostConfig
  state : ContainerState
  deriving DecidableEq

/-- The protocol of a port: `tcp` if none or an empty one is given. -/
def portProtocol : Option String → String
  | none => "tcp"
  | some protocol => if protocol.isEmpty then "tcp" else protocol

/-- The key of a port in the maps of ports. -/
def portKey (port : UInt16) (protocol : Option String) : String :=
  Decimal.text port.toNat ++ "/" ++ portProtocol protocol

namespace PortConfig

/-- The key of the target port. -/
def key (port : PortConfig) : String := portKey port.targetPort port.protocol

/-- The binding of a port to all addresses of the host; the host port is empty if
the port is not published. -/
def binding (port : PortConfig) : PortBinding :=
  ⟨"0.0.0.0",
    match port.publishedPort with
    | some published => Decimal.text published.toNat
    | none => ""⟩

end PortConfig

namespace ProcessInstance

/-! ## Operations -/

/-- The instance of a name for a task of a service.  Of ports with one key the
last is bound. -/
def forService (draw : Draw) (service : Service) (name : String) : ProcessInstance :=
  let ports := service.spec.ports
  let content := service.spec.taskTemplate.containerSpec.getD {}
  { id := draw.id
    name := name
    image := content.image
    createdAt := draw.instant
    config :=
      { entrypoint := content.command
        command := content.args
        env := content.env
        exposedPorts := .ofList (ports.map fun port => (port.key, {})) }
    hostConfig := ⟨.ofList (ports.map fun port => (port.key, [port.binding]))⟩
    state := ⟨true, draw.instant, UInt32.ofNat draw.processNumber, 0⟩ }

/-- Whether the instance runs. -/
def isRunning (process : ProcessInstance) : Bool := process.state.isRunning

/-- Whether a text is the identifier or the name of the instance. -/
def answersTo (process : ProcessInstance) (asked : String) : Bool :=
  process.id == asked || process.name == asked

end ProcessInstance

end SwarmManager
