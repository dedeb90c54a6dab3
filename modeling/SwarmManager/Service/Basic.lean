import SwarmManager.Error
import SwarmManager.Supply

/-!
# Services

A service is a wish: a spec says what its tasks run, how many there are to be and
which ports they publish.  Replacing the spec counts up the version.

The main question to a spec is `desiredTasks`.  A global service wants one task
for each node, and `global` wins over `replicated` where a mode has both;
otherwise a service wants its replicas, one unless it says how many, and at most
`maxReplicas`.
-/

namespace SwarmManager

set_option autoImplicit false

/-! ## Specs -/

/-- What the container of a task runs. -/
structure ContainerSpec where
  image : String := ""
  labels : StringMap String := .empty
  command : List String := []
  args : List String := []
  env : List String := []
  dir : Option String := none
  user : Option String := none
  deriving DecidableEq, Inhabited

/-- The template of the tasks of a service. -/
structure TaskSpec where
  containerSpec : Option ContainerSpec := none
  deriving DecidableEq, Inhabited

/-- So many tasks; one if no number is given. -/
structure ReplicatedService where
  replicas : Option UInt64 := none
  deriving DecidableEq, Inhabited

/-- One task for each node. -/
structure GlobalService where
  deriving DecidableEq, Inhabited

/-- How many tasks there are to be.  Neither member need be given. -/
structure ServiceMode where
  replicated : Option ReplicatedService := none
  global : Option GlobalService := none
  deriving DecidableEq, Inhabited

/-- A port of the containers, and the port it is published at. -/
structure PortConfig where
  name : Option String := none
  protocol : Option String := none
  targetPort : UInt16
  publishedPort : Option UInt16 := none
  publishMode : Option String := none
  deriving DecidableEq

/-- How a service is reached. -/
structure EndpointSpec where
  mode : Option String := none
  ports : List PortConfig := []
  deriving DecidableEq, Inhabited

/-- What a service is to be. -/
structure ServiceSpec where
  name : String := ""
  labels : StringMap String := .empty
  taskTemplate : TaskSpec := {}
  mode : Option ServiceMode := none
  endpointSpec : Option EndpointSpec := none
  deriving DecidableEq, Inhabited

namespace ServiceSpec

/-- The largest number of replicas a service may ask for. -/
def maxReplicas : Nat := 10000

/-- Whether the service wants one task for each node. -/
def isGlobal (spec : ServiceSpec) : Bool := spec.mode.any fun mode => mode.global.isSome

/-- The number of replicas asked for. -/
def replicas (spec : ServiceSpec) : Nat :=
  match spec.mode.bind fun mode => mode.replicated.bind ReplicatedService.replicas with
  | some count => count.toNat
  | none => 1

/-- The objection to too many replicas. -/
def tooManyReplicas (asked : Nat) : Error :=
  .invalidArgument ("replica count " ++ Decimal.text asked ++ " exceeds the maximum of " ++
    Decimal.text maxReplicas)

/-- The number of tasks wanted on so many nodes. -/
def desiredTasks (spec : ServiceSpec) (nodeCount : Nat) : Except Error Nat :=
  if spec.isGlobal then .ok nodeCount
  else if maxReplicas < spec.replicas then .error (tooManyReplicas spec.replicas)
  else .ok spec.replicas

/-- The ports of the service's endpoint. -/
def ports (spec : ServiceSpec) : List PortConfig :=
  match spec.endpointSpec with
  | some endpoint => endpoint.ports
  | none => []

end ServiceSpec

/-! ## Services -/

/-- How often the spec of a service has been set. -/
structure ServiceVersion where
  index : UInt64
  deriving DecidableEq, Inhabited

/-- A registered service. -/
structure Service where
  id : String
  spec : ServiceSpec
  version : ServiceVersion
  createdAt : Instant
  updatedAt : Instant
  deriving DecidableEq

namespace Service

/-- A new service, in its first version. -/
def create (draw : Draw) (spec : ServiceSpec) : Service :=
  ⟨draw.id, spec, ⟨1⟩, draw.instant, draw.instant⟩

/-- The service with another spec, in its next version. -/
def revise (service : Service) (spec : ServiceSpec) (instant : Instant) : Service :=
  { service with
    spec := spec
    version := ⟨service.version.index + 1⟩
    updatedAt := instant }

/-- Whether a text is the identifier or the name of the service. -/
def answersTo (service : Service) (asked : String) : Bool :=
  service.id == asked || service.spec.name == asked

end Service

end SwarmManager
