import SwarmManager.Filters
import SwarmManager.Instance.Registry
import SwarmManager.Membership.Endpoint
import SwarmManager.Membership.Operation
import SwarmManager.Placement
import SwarmManager.Settings
import SwarmManager.Swarm

/-!
# Members

A member is one simulated manager: the swarm it is in, the node, service and task
registries, the instances behind its tasks, and whose turn it is to be given a
task.

What a member does by itself is an `Action`: it may fail, and whatever it did to
the member before failing stays done.
-/

namespace SwarmManager

set_option autoImplicit false

/-- Who is told of started instances. -/
inductive Observer where
  | listening
  | none
  /-- There was an observer, and it listens no more. -/
  | gone
  deriving DecidableEq, Inhabited

/-- One simulated manager. -/
structure Member where
  settings : Settings
  machine : Machine
  observer : Observer
  supply : Supply
  swarm : Option Swarm
  nodeId : Option String
  nodes : List Node
  services : List Service
  tasks : List Task
  turn : RoundRobin
  /-- The endpoint on which other members reach this one. -/
  listener : Option Endpoint
  instances : InstanceRegistry
  /-- The instances the observer has been told of. -/
  observed : List ProcessInstance

namespace Member

/-- A member that has done nothing yet. -/
def start (settings : Settings) (machine : Machine) (observer : Observer) (supply : Supply) :
    Member where
  settings := settings
  machine := machine
  observer := observer
  supply := supply
  swarm := none
  nodeId := none
  nodes := []
  services := []
  tasks := []
  turn := .start
  listener := none
  instances := .empty
  observed := []

/-- Something a member does by itself. -/
abbrev Action (α : Type) : Type := ExceptT Error (StateM Member) α

/-! ## Looking -/

/-- The swarm the member is in. -/
def inspectSwarm (member : Member) : Except Error Swarm :=
  match member.swarm with
  | some swarm => .ok swarm
  | none => .error .notInSwarm

/-- The registered node of an identifier. -/
def inspectNode (member : Member) (id : String) : Except Error Node := do
  let _ ← member.inspectSwarm
  match member.nodes.find? fun node => node.id == id with
  | some node => .ok node
  | none => .error (.nodeNotFound id)

/-- The registered nodes. -/
def listNodes (member : Member) : Except Error (List Node) := do
  let _ ← member.inspectSwarm
  return member.nodes

/-- The place of the first service that an identifier or a name fits. -/
def locateService (member : Member) (asked : String) :
    Except Error (Fin member.services.length) :=
  match member.services.findFinIdx? fun service => service.answersTo asked with
  | some place => .ok place
  | none => .error (.serviceNotFound asked)

/-- The first service that an identifier or a name fits. -/
def inspectService (member : Member) (asked : String) : Except Error Service := do
  let _ ← member.inspectSwarm
  let place ← member.locateService asked
  return member.services.get place

/-- The services that pass the filters. -/
def listServices (member : Member) (filters : Filters) : Except Error (List Service) := do
  let _ ← member.inspectSwarm
  return member.services.filter filters.passesService

/-- The task of an identifier. -/
def inspectTask (member : Member) (id : String) : Except Error Task := do
  let _ ← member.inspectSwarm
  match member.tasks.find? fun task => task.id == id with
  | some task => .ok task
  | none => .error (.taskNotFound id)

/-- Of some tasks those that pass the filters, seen with the service they belong
to. -/
def selectTasks (member : Member) (filters : Filters) : List Task → Except Error (List Task)
  | [] => .ok []
  | task :: rest =>
      match member.services.find? fun service => service.id == task.serviceId with
      | none => .error (.serviceNotFound task.serviceId)
      | some owner => do
          let selected ← member.selectTasks filters rest
          return if filters.passesTask task owner then task :: selected else selected

/-- The tasks that pass the filters. -/
def listTasks (member : Member) (filters : Filters) : Except Error (List Task) := do
  let _ ← member.inspectSwarm
  if filters.isActive then member.selectTasks filters member.tasks else .ok member.tasks

/-- All instances. -/
def listInstances (member : Member) : List ProcessInstance := member.instances.toList

/-- The first instance that an identifier or a name fits. -/
def inspectInstance (member : Member) (asked : String) : Except Error ProcessInstance :=
  member.instances.get asked

/-! ## Drawing -/

/-- Take the next draw. -/
def draw : Action Draw := do
  let member ← get
  set { member with supply := member.supply.advance }
  return member.supply.next

end Member

end SwarmManager
