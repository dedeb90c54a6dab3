import SwarmManager.Proofs.Failure
import SwarmManager.Proofs.RegistrySteps
import SwarmManager.Proofs.Start
import SwarmManager.Proofs.Steps

/-!
# Membership and services are apart

All that a member knows is in one record, and every request may change any of it.  Still, a
request about swarms and nodes leaves the services of every member alone, whatever its peers
do (`Member.SameServices`), and a request about services leaves alone who is in which swarm,
lists whom and listens where (`Member.SameMembership`).

So the services of a member outlast any run of requests about swarms and nodes
(`sameServices_after`), in which the member may leave its swarm and enter another one, and
tasks may be left on nodes that are gone.  What the member answers about its services, tasks
and instances is the same before and after (`membership_and_services_apart`).
-/

namespace SwarmManager

set_option autoImplicit false

/-! ## Kinds of requests -/

/-- A request about swarms and nodes schedules nothing. -/
theorem Command.schedules_of_isAboutNodes {command : Command}
    (about : command.isAboutNodes = true) : command.schedules = false := by
  cases command with
  | createService | updateService | deleteService => exact absurd about (by simp [isAboutNodes])
  | _ => rfl

/-- A request that schedules is not about swarms and nodes. -/
theorem Command.isAboutNodes_of_schedules {command : Command}
    (scheduling : command.schedules = true) : command.isAboutNodes = false := by
  cases about : command.isAboutNodes with
  | false => rfl
  | true => rw [schedules_of_isAboutNodes about] at scheduling; cases scheduling

/-! ## What a member answers about its services -/

namespace Member

variable {member : Member}

theorem inspectSwarm_of_inSwarm (inSwarm : member.swarm.isSome) :
    ∃ swarm, member.inspectSwarm = .ok swarm := by
  obtain ⟨swarm, inside⟩ := Option.isSome_iff_exists.mp inSwarm
  exact ⟨swarm, by rw [inspectSwarm, inside]⟩

theorem listServices_of_inSwarm (inSwarm : member.swarm.isSome) (filters : Filters) :
    member.listServices filters = .ok (member.services.filter filters.passesService) := by
  obtain ⟨swarm, inspected⟩ := inspectSwarm_of_inSwarm inSwarm
  rw [listServices, inspected]
  rfl

theorem listTasks_of_inSwarm (inSwarm : member.swarm.isSome) (filters : Filters) :
    member.listTasks filters =
      if filters.isActive then member.selectTasks filters member.tasks else .ok member.tasks := by
  obtain ⟨swarm, inspected⟩ := inspectSwarm_of_inSwarm inSwarm
  rw [listTasks, inspected]
  rfl

namespace SameServices

variable {before after : Member} (same : before.SameServices after)
include same

/-- Which tasks are selected depends on their owners only. -/
theorem selectTasks_eq (filters : Filters) (tasks : List Task) :
    after.selectTasks filters tasks = before.selectTasks filters tasks := by
  induction tasks with
  | nil => rfl
  | cons task rest ih => simp only [selectTasks, same.services, ih]

section InSwarm

variable (inside : before.swarm.isSome) (still : after.swarm.isSome) (filters : Filters)
include inside still

theorem listServices_eq : after.listServices filters = before.listServices filters := by
  rw [listServices_of_inSwarm inside, listServices_of_inSwarm still, same.services]

theorem listTasks_eq : after.listTasks filters = before.listTasks filters := by
  rw [listTasks_of_inSwarm inside, listTasks_of_inSwarm still, same.tasks, same.selectTasks_eq]

end InSwarm

theorem listInstances_eq : after.listInstances = before.listInstances := by
  rw [listInstances, listInstances, same.instances]

end SameServices

end Member

namespace World

variable {n : Nat}

/-- Settling closes no socket that is open. -/
theorem openSockets_step {α : Type} (world : World n) (action : Action n α) :
    (world.step action).2.network.openSockets =
      (action.run.run world).2.network.openSockets :=
  Network.openSockets_settle _ _

/-! ## Runs -/

/-- The services of a member outlast every run in which the requests to it are about swarms and
nodes. -/
theorem sameServices_after (world : World n) (index : Fin n) {requests : List (Fin n × Command)}
    (about : ∀ request ∈ requests, request.1 = index → request.2.isAboutNodes = true) :
    (world.member index).SameServices ((world.after requests).member index) := by
  induction requests using List.reverseRecOn with
  | nil => exact .refl _
  | append_singleton requests request ih =>
    have earlier := ih fun other listed => about other (List.mem_append_left _ listed)
    rw [after_append, member_step]
    by_cases here : request.1 = index
    · have last := about request (List.mem_append_right _ (List.mem_singleton_self request)) here
      exact earlier.trans
        (SameServices.keeps_perform request.1 (Command.schedules_of_isAboutNodes last) _ index)
    · exact earlier.trans (sameServices_perform _ (Ne.symm here) request.2)

end World

/-- **Membership and services do not disturb each other.**  In every world and whatever becomes
of what is sent to peers, a request about swarms and nodes, whether it fails or not, leaves the
services, tasks and instances of every member and its turn as they were, and a request to
create, update or delete a service leaves its swarm, its identifier there, its nodes and where
it listens.  So a member that is in a swarm before a run and after it lists the same services,
tasks and instances, with any filters, if the requests to it were about swarms and nodes. -/
theorem membership_and_services_apart {n : Nat} (world : World n) (index : Fin n) :
    (∀ (asked : Fin n) (command : Command), command.isAboutNodes = true →
      let before := world.member index
      let after := (world.step (World.perform asked command)).2.member index
      after.services = before.services ∧ after.tasks = before.tasks ∧
        after.instances = before.instances ∧ after.turn = before.turn) ∧
    (∀ (asked : Fin n) (command : Command), command.schedules = true →
      let before := world.member index
      let reached := (world.step (World.perform asked command)).2
      let after := reached.member index
      after.swarm = before.swarm ∧ after.nodeId = before.nodeId ∧ after.nodes = before.nodes ∧
        after.listener = before.listener ∧
        reached.network.openSockets = world.network.openSockets) ∧
    ∀ requests : List (Fin n × Command),
      (∀ request ∈ requests, request.1 = index → request.2.isAboutNodes = true) →
      let reached := world.after requests
      (world.member index).swarm.isSome → (reached.member index).swarm.isSome →
      (∀ filters, (reached.step (World.perform index (.listServices filters))).1 =
        (world.step (World.perform index (.listServices filters))).1) ∧
      (∀ filters, (reached.step (World.perform index (.listTasks filters))).1 =
        (world.step (World.perform index (.listTasks filters))).1) ∧
      (reached.step (World.perform index .listInstances)).1 =
        (world.step (World.perform index .listInstances)).1 := by
  refine ⟨?_, ?_, ?_⟩
  · intro asked command about before after
    have same : before.SameServices after :=
      World.SameServices.keeps_perform asked (Command.schedules_of_isAboutNodes about) world index
    exact ⟨same.services, same.tasks, same.instances, same.turn⟩
  · intro asked command scheduling before reached after
    have same := World.SameMembership.perform world asked
      (Command.isAboutNodes_of_schedules scheduling)
    have member : before.SameMembership after := same.member index
    refine ⟨member.swarm, member.nodeId, member.nodes, member.listener, ?_⟩
    rw [World.openSockets_step, same.network_eq]
  · intro requests about reached inside still
    have same : (world.member index).SameServices (reached.member index) :=
      World.sameServices_after world index about
    refine ⟨fun filters => ?_, fun filters => ?_, ?_⟩
    · have viewed := fun world : World n =>
        World.outcome_view world index (Member.listServices · filters) .services
      rw [World.perform, viewed, viewed, same.listServices_eq inside still]
    · have viewed := fun world : World n =>
        World.outcome_view world index (Member.listTasks · filters) .tasks
      rw [World.perform, viewed, viewed, same.listTasks_eq inside still]
    · exact congrArg (fun listed => Except.ok (Answer.processes listed)) same.listInstances_eq

/-- A member whose node was removed and who came back as another one still lists the tasks on the
node that is gone, and creating a service does not take it out of its swarm. -/
theorem membership_and_services_apart_removedAndBack :
    let world := World.twoMembers.after World.twoServices
    let reached := world.after World.removedAndBack
    let onRemoved : Filters := ⟨some (StringMap.empty.insert "node" ["a"])⟩
    (∃ answer, (world.step (World.perform 0 (.listTasks onRemoved))).1 = .ok answer) ∧
      (reached.member 0).nodeId ≠ (world.member 0).nodeId ∧
      (∀ node ∈ (reached.member 0).nodes, node.id ≠ "a") ∧
      (reached.step (World.perform 0 (.listTasks onRemoved))).1 =
        (world.step (World.perform 0 (.listTasks onRemoved))).1 ∧
      ((world.step (World.perform 0 .leaveCluster)).2.member 0).tasks = (world.member 0).tasks ∧
      ((world.step (World.perform 0 (.createService {}))).2.member 0).swarm =
        (world.member 0).swarm := by
  intro world reached onRemoved
  have inside : (world.member 0).swarm.isSome := by decide +kernel
  have still : (reached.member 0).swarm.isSome := by decide +kernel
  obtain ⟨membership, services, runs⟩ := membership_and_services_apart world 0
  obtain ⟨_, tasks, _⟩ := runs World.removedAndBack (by decide) inside still
  refine ⟨?_, by decide +kernel, by decide +kernel, tasks onRemoved,
    (membership 0 .leaveCluster rfl).2.1, (services 0 (.createService {}) rfl).1⟩
  have answered : World.halt? (world.step (World.perform 0 (.listTasks onRemoved))).1 = none := by
    decide +kernel
  rcases ended : (world.step (World.perform 0 (.listTasks onRemoved))).1 with halt | answer
  · rw [ended] at answered
    cases answered
  · exact ⟨answer, rfl⟩

end SwarmManager
