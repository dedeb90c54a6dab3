import SwarmManager.Member.Basic

/-!
# Services of a member

Creating a service places its tasks, updating it replaces all of them, and
deleting it removes them, each task together with its instance.  New tasks are
placed before old ones are removed, so an update that cannot place its tasks
leaves the old ones where they are.
-/

namespace SwarmManager.Member

set_option autoImplicit false

/-! ## Tasks and their instances -/

/-- Place the tasks of a service without registering them. -/
def place (service : Service) (suffix : String) : Action (List Placed) := do
  let member ← get
  let (placed, turn, supply) ←
    placeTasks member.nodes service suffix member.turn member.supply
  set { member with turn := turn, supply := supply }
  return placed

/-- The member after its observer was told of instances, if it has one that
listens. -/
def tell (member : Member) (started : List ProcessInstance) : Member :=
  match member.observer with
  | .listening => { member with observed := member.observed ++ started }
  | .none | .gone => member

/-- The member with placed tasks and their instances registered. -/
def register (member : Member) (placed : List Placed) : Member :=
  let started := placed.map Placed.process
  let told := member.tell started
  { told with
    instances := told.instances.append started
    tasks := told.tasks ++ placed.map Placed.task }

/-- The member without the tasks of a service and their instances. -/
def withoutTasksOf (member : Member) (serviceId : String) : Member :=
  let (removed, kept) := member.tasks.partition fun task => task.serviceId == serviceId
  { member with
    tasks := kept
    instances := member.instances.removeAll (removed.map Task.containerId) }

/-! ## Creating, updating, deleting -/

/-- The ending of the names of instances that an update starts. -/
def updatedSuffix : String := "-updated"

/-- The list without the item at a place, which the last item takes. -/
def fillGap {α : Type} (items : List α) (place : Nat) : List α :=
  match items.getLast? with
  | some last => items.dropLast.set place last
  | none => []

/-- The name of a spec; a drawn one if it is empty. -/
def nameOrDrawn (spec : ServiceSpec) : Action String := do
  if spec.name.isEmpty then return (← draw).id else return spec.name

/-- Register a service and place its tasks. -/
def createService (spec : ServiceSpec) : Action Service := do
  let _ ← (← get).inspectSwarm
  if (← get).nodes.isEmpty then throw .noNodes
  let name ← nameOrDrawn spec
  if (← get).services.any fun service => service.spec.name == name then
    throw (.nameConflict name)
  let service := Service.create (← draw) { spec with name := name }
  let placed ← place service ""
  modify fun member => member.register placed
  modify fun member => { member with services := member.services ++ [service] }
  return service

/-- Give a service another spec and replace its tasks.  An empty name keeps the
name. -/
def updateService (asked : String) (spec : ServiceSpec) : Action Service := do
  let member ← get
  let _ ← member.inspectSwarm
  let index ← member.locateService asked
  let current := member.services.get index
  let name := if spec.name.isEmpty then current.spec.name else spec.name
  if (member.services.eraseIdx index.val).any fun service => service.spec.name == name then
    throw (.nameConflict name)
  let service := current.revise { spec with name := name } (← draw).instant
  let placed ← place service updatedSuffix
  modify fun member => member.withoutTasksOf service.id
  modify fun member => member.register placed
  modify fun member => { member with services := member.services.set index.val service }
  return service

/-- Remove a service with its tasks and their instances. -/
def deleteService (asked : String) : Action Unit := do
  let member ← get
  let _ ← member.inspectSwarm
  let index ← member.locateService asked
  let service := member.services.get index
  modify fun member => { member with services := fillGap member.services index.val }
  modify fun member => member.withoutTasksOf service.id

end SwarmManager.Member
