import SwarmManager.StringMap
import SwarmManager.Supply

/-!
# Nodes

A node is one member of a swarm as the members see it: what its users may edit
(`NodeSpec`), what it says about its machine, its status, and the address of its
peer endpoint if it is a manager.  Every member that is created here is a
manager.
-/

namespace SwarmManager

set_option autoImplicit false

/-! ## What a node is made of -/

/-- What a node is for. -/
inductive NodeRole where
  | worker
  | manager
  deriving DecidableEq, Inhabited

/-- Whether a node takes part. -/
inductive NodeState where
  | unknown
  | down
  | ready
  | disconnected
  deriving DecidableEq, Inhabited

/-- Whether a node takes tasks. -/
inductive NodeAvailability where
  | active
  | pause
  | drain
  deriving DecidableEq, Inhabited

/-- The part of a node that its users may edit. -/
structure NodeSpec where
  name : String := ""
  labels : StringMap String := .empty
  role : NodeRole := .worker
  availability : NodeAvailability := .active
  deriving DecidableEq, Inhabited

/-- The kind of a machine. -/
structure Platform where
  architecture : String := ""
  operatingSystem : String := ""
  deriving DecidableEq, Inhabited

/-- What a machine has to offer, in billionths of a processor and in bytes. -/
structure Resources where
  processorShares : Int64 := 0
  memoryBytes : Int64 := 0
  deriving DecidableEq, Inhabited

/-- What a node says about its machine. -/
structure NodeDescription where
  hostname : String := ""
  platform : Platform := {}
  resources : Resources := {}
  deriving DecidableEq, Inhabited

/-- The status of a node and the address it is seen at. -/
structure NodeStatus where
  state : NodeState := .unknown
  message : String := ""
  address : String := ""
  deriving DecidableEq, Inhabited

/-- What is known of a manager: whether it leads, and where its peer endpoint is. -/
structure ManagerStatus where
  isLeader : Bool
  reachability : String
  address : String
  deriving DecidableEq

/-- One member of a swarm as the members see it. -/
structure Node where
  id : String
  spec : NodeSpec
  description : NodeDescription
  status : NodeStatus
  managerStatus : Option ManagerStatus
  createdAt : Instant
  updatedAt : Instant
  deriving DecidableEq

/-- The machine that a member runs on. -/
structure Machine where
  hostname : String
  platform : Platform
  processors : Nat
  deriving DecidableEq, Inhabited

namespace Machine

/-- The memory that every node reports: eight gibibytes. -/
def reportedMemory : Int64 := 8 * 1024 * 1024 * 1024

/-- What a node on a machine says about it. -/
def description (machine : Machine) : NodeDescription where
  hostname := machine.hostname
  platform := machine.platform
  resources := ⟨Int64.ofNat machine.processors * 1000000000, reportedMemory⟩

end Machine

namespace Node

/-! ## Operations -/

/-- A manager that is ready, on a machine, with its peer endpoint at one address
and seen at another. -/
def manager (draw : Draw) (machine : Machine) (managerAddress statusAddress : String)
    (isLeader : Bool) : Node where
  id := draw.id
  spec := { role := .manager }
  description := machine.description
  status := ⟨.ready, "", statusAddress⟩
  managerStatus := some ⟨isLeader, "reachable", managerAddress⟩
  createdAt := draw.instant
  updatedAt := draw.instant

/-- The node with another spec, updated at an instant. -/
def withSpec (node : Node) (spec : NodeSpec) (instant : Instant) : Node :=
  { node with spec := spec, updatedAt := instant }

/-- The address of the node's peer endpoint. -/
def peerAddress? (node : Node) : Option String := node.managerStatus.map ManagerStatus.address

/-- Whether the node is to be a manager. -/
def isManager (node : Node) : Bool := node.spec.role == .manager

/-- Whether the node leads its swarm. -/
def isLeader (node : Node) : Bool := node.managerStatus.any ManagerStatus.isLeader

/-- Whether the node is ready. -/
def isReady (node : Node) : Bool := node.status.state == .ready

end Node

end SwarmManager
