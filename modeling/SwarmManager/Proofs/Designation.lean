import SwarmManager.Proofs.Integrity
import Mathlib.Data.List.Find

/-!
# Whom an identifier designates

A request names a service by an identifier or a name, and is about the first registered
service that has it for one of the two.  Names are chosen by clients and only kept apart
from other names, so the identifier of a service designates the service itself unless one
listed before it has the identifier for its name (`designated`).

Whichever service it is, the requests that name it are about that service alone:
`Respecified` and `Removed` say what becomes of it, its tasks and their instances, and that
nothing else changes.
-/

namespace SwarmManager

set_option autoImplicit false

/-- The service that the identifier of a registered one designates: the first of those
listed before it that has the identifier for its name, or the service itself. -/
def designated (before : List Service) (service : Service) : Service :=
  (before.find? fun other => other.spec.name == service.id).getD service

section Designated

variable {before behind : List Service} {service : Service}
  (nodup : ((before ++ service :: behind).map Service.id).Nodup)
include nodup

theorem id_ne_of_before {other : Service} (earlier : other ∈ before) : other.id ≠ service.id := by
  intro same
  rw [List.map_append, List.map_cons, List.nodup_append] at nodup
  exact nodup.2.2 _ (List.mem_map_of_mem earlier) _ List.mem_cons_self same

/-- An identifier designates its service exactly if no service listed before it has it for
its name. -/
theorem designated_eq_self :
    designated before service = service ↔ ∀ other ∈ before, other.spec.name ≠ service.id := by
  constructor
  · intro itself other earlier named
    cases found : before.find? fun other => other.spec.name == service.id with
    | none => exact List.find?_eq_none.mp found other earlier (beq_iff_eq.mpr named)
    | some first =>
      rw [designated, found, Option.getD_some] at itself
      exact id_ne_of_before nodup (List.mem_of_find?_eq_some found) (congrArg Service.id itself)
  · intro nobody
    rw [designated, List.find?_eq_none.mpr fun other earlier named =>
      nobody other earlier (beq_iff_eq.mp named), Option.getD_none]

/-- The designated service is the first that answers to the identifier. -/
theorem find?_answersTo :
    ((before ++ service :: behind).find? fun other => other.answersTo service.id) =
      some (designated before service) := by
  have byName : (before.find? fun other => other.answersTo service.id) =
      before.find? fun other => other.spec.name == service.id :=
    List.find?_congr fun other earlier => by
      rw [Service.answersTo, beq_eq_false_iff_ne.mpr (id_ne_of_before nodup earlier), Bool.false_or]
  have itself : (service :: behind).find? (fun other => other.answersTo service.id) =
      some service := List.find?_cons_of_pos (by simp [Service.answersTo])
  rw [List.find?_append, byName, itself, Option.or_some, designated]

end Designated

namespace Member

/-! ## What becomes of a service -/

/-- The tasks of other services than one. -/
def tasksApart (member : Member) (serviceId : String) : List Task :=
  member.tasks.filter fun task => task.serviceId != serviceId

/-- The instances that run no task of a service. -/
def instancesApart (member : Member) (serviceId : String) : List ProcessInstance :=
  member.instances.toList.filter fun process =>
    !((member.tasks.filter fun task => task.serviceId == serviceId).map
      Task.containerId).contains process.id

/-- Between two states of a member a service got another spec, and other tasks in place of
those it had, each with its instance.  Draws were taken, nodes had their turns, and the
observer was told; otherwise nothing changed. -/
structure Respecified (service : Service) (spec : ServiceSpec) (revised : Service)
    (before after : Member) : Prop where
  id_eq : revised.id = service.id
  spec_eq : revised.spec =
    { spec with name := if spec.name.isEmpty then service.spec.name else spec.name }
  services_eq : after.services =
    before.services.map fun other => if other.id = service.id then revised else other
  replaced : ∃ placed : List Placed,
    (∀ pair ∈ placed,
      pair.task.serviceId = service.id ∧ pair.task.containerId = pair.process.id) ∧
    after.tasks = before.tasksApart service.id ++ placed.map Placed.task ∧
    after.instances.toList = before.instancesApart service.id ++ placed.map Placed.process
  frame : after =
    { before with
      services := after.services, tasks := after.tasks, instances := after.instances
      supply := after.supply, turn := after.turn, observed := after.observed }

/-- Between two states of a member a service was removed, with its tasks and their
instances, and otherwise nothing changed but the order of the services. -/
structure Removed (service : Service) (before after : Member) : Prop where
  services_perm : after.services.Perm
    (before.services.filter fun other => other.id != service.id)
  tasks_eq : after.tasks = before.tasksApart service.id
  instances_eq : after.instances.toList = before.instancesApart service.id
  frame : after =
    { before with
      services := after.services, tasks := after.tasks, instances := after.instances }

variable {member : Member}

/-- Who is found first is located. -/
theorem locateService_of_find? {asked : String} {service : Service}
    (found : (member.services.find? fun other => other.answersTo asked) = some service) :
    ∃ place, member.locateService asked = .ok place ∧ member.services.get place = service := by
  rw [List.find?_eq_map_findFinIdx?_getElem] at found
  obtain ⟨place, first, rfl⟩ := Option.map_eq_some_iff.mp found
  exact ⟨place, by rw [locateService, first], rfl⟩

/-- The tasks of a service are removed with their instances, and nothing else. -/
theorem instances_withoutTasksOf_eq (nodup : (member.instances.toList.map ProcessInstance.id).Nodup)
    (serviceId : String) :
    (member.withoutTasksOf serviceId).instances.toList = member.instancesApart serviceId := by
  rw [instances_withoutTasksOf, InstanceRegistry.toList_removeAll nodup]
  rfl

theorem Updated.respecified {asked : String} {spec : ServiceSpec}
    {place : Fin member.services.length} {service : Service} {placed : List Placed}
    {turn : RoundRobin} (updated : member.Updated asked spec place service placed turn)
    (services : (member.services.map Service.id).Nodup)
    (instances : (member.instances.toList.map ProcessInstance.id).Nodup) :
    Respecified (member.services.get place) spec service member
      (member.afterUpdating place service placed turn) := by
  have sameId : service.id = (member.services.get place).id := by rw [updated.service_eq]; rfl
  refine ⟨sameId, by rw [updated.service_eq]; rfl, set_key services place service,
    ⟨placed, fun pair present => ?_, ?_, ?_⟩, ?_⟩
  · rw [← sameId]
    exact updated.all_placed.task_links present
  · rw [← sameId]
    refine (tasks_register _ placed).trans (congrArg (· ++ placed.map Placed.task) ?_)
    exact tasks_withoutTasksOf _ service.id
  · rw [← sameId]
    refine (instances_register _ placed).trans (congrArg (· ++ placed.map Placed.process) ?_)
    exact instances_withoutTasksOf_eq instances service.id
  · cases observer : member.observer <;>
      simp [afterUpdating, register, tell, withoutTasksOf, drew, observer]

theorem removed_afterDeleting (place : Fin member.services.length)
    (services : (member.services.map Service.id).Nodup)
    (instances : (member.instances.toList.map ProcessInstance.id).Nodup) :
    Removed (member.services.get place) member (member.afterDeleting place) where
  services_perm := by
    have erased := eraseIdx_key services place
    exact erased ▸ perm_fillGap member.services place.isLt
  tasks_eq := tasks_withoutTasksOf _ _
  instances_eq := instances_withoutTasksOf_eq instances _
  frame := rfl

/-- No two instances share an identifier. -/
theorem Whole.instances_nodup {pairs : List Placed} (whole : member.Whole pairs) :
    (member.instances.toList.map ProcessInstance.id).Nodup := by
  rw [whole.paired.instances_eq, List.map_map]
  exact whole.sound.processes_nodup

/-- In a swarm a service that is located is deleted. -/
theorem run_deleteService_located {asked : String} {place : Fin member.services.length}
    (inSwarm : member.swarm.isSome) (located : member.locateService asked = .ok place) :
    (deleteService asked).run.run member = (.ok ⟨⟩, member.afterDeleting place) := by
  obtain ⟨swarm, inside⟩ := Option.isSome_iff_exists.mp inSwarm
  have inspected : member.inspectSwarm = .ok swarm := by rw [inspectSwarm, inside]
  simp only [deleteService, run_bind, run_get, run_liftM, inspected, located, run_modify]
  rfl

end Member

/-! ## Requests that name a service -/

namespace World

variable {n : Nat} {world : World n} {index : Fin n} {service : Service} {asked : String}

theorem step_inspectService (inSwarm : (world.member index).swarm.isSome)
    (found : ((world.member index).services.find? fun other => other.answersTo asked) =
      some service) :
    (world.step (perform index (.inspectService asked))).1 = .ok (.service service) := by
  obtain ⟨place, located, rfl⟩ := Member.locateService_of_find? found
  obtain ⟨swarm, inside⟩ := Option.isSome_iff_exists.mp inSwarm
  have inspected : (world.member index).inspectService asked =
      .ok ((world.member index).services.get place) := by
    simp only [Member.inspectService, Member.inspectSwarm, inside, located]
    rfl
  simp only [step, perform, run_bind, run_look, inspected, run_found]
  rfl

/-- An update that succeeds is one of the service that is found. -/
theorem step_updateService {spec : ServiceSpec} {answer : Answer} {after : World n}
    (services : ((world.member index).services.map Service.id).Nodup)
    (instances : ((world.member index).instances.toList.map ProcessInstance.id).Nodup)
    (found : ((world.member index).services.find? fun other => other.answersTo asked) =
      some service)
    (run : world.step (perform index (.updateService asked spec)) = (.ok answer, after)) :
    ∃ revised, answer = .service revised ∧
      Member.Respecified service spec revised (world.member index) (after.member index) ∧
      ∀ other ≠ index, after.member other = world.member other := by
  obtain ⟨place, located, rfl⟩ := Member.locateService_of_find? found
  simp only [step, perform, run_bind, run_act] at run
  rcases Member.run_updateService (world.member index) asked spec with
    ⟨error, count, _, failed⟩ | ⟨position, revised, placed, turn, updated, succeeded⟩
  · simp only [failed, Except.mapError] at run
    cases run
  · simp only [succeeded, Except.mapError, run_pure] at run
    obtain rfl := Except.ok.inj (updated.located.symm.trans located)
    cases run
    refine ⟨revised, rfl, ?_, fun other apart => ?_⟩
    · change Member.Respecified _ _ _ _ ((world.setMember index _).member index)
      rw [member_setMember, if_pos rfl]
      exact updated.respecified services instances
    · exact (member_setMember world index other _).trans (if_neg apart)

/-- In a swarm the service that is found is deleted. -/
theorem step_deleteService (inSwarm : (world.member index).swarm.isSome)
    (services : ((world.member index).services.map Service.id).Nodup)
    (instances : ((world.member index).instances.toList.map ProcessInstance.id).Nodup)
    (found : ((world.member index).services.find? fun other => other.answersTo asked) =
      some service) :
    ∃ after, world.step (perform index (.deleteService asked)) = (.ok .done, after) ∧
      Member.Removed service (world.member index) (after.member index) ∧
      ∀ other ≠ index, after.member other = world.member other := by
  obtain ⟨place, located, rfl⟩ := Member.locateService_of_find? found
  have run := Member.run_deleteService_located inSwarm located
  simp only [step, perform, run_bind, run_act, run, Except.mapError, run_pure]
  refine ⟨_, rfl, ?_, fun other apart => ?_⟩
  · change Member.Removed _ _ ((world.setMember index _).member index)
    rw [member_setMember, if_pos rfl]
    exact Member.removed_afterDeleting place services instances
  · exact (member_setMember world index other _).trans (if_neg apart)

end World

/-- **An identifier designates one service.**  After every run of a member that was just
started, with draws that do not repeat, the identifier of a registered service designates
the service itself, unless one listed before it has the identifier for its name.  In a
swarm the designated service is the one that is inspected; a successful update gives it
another spec and other tasks; and a removal removes it with its tasks and their instances.
Nothing else changes. -/
theorem ids_designate_services {n : Nat} (world : World n) (index : Fin n) (settings : Settings)
    (machine : Machine) (observer : Observer) (supply : Supply)
    (started : world.member index = .start settings machine observer supply)
    (distinct : supply.Distinct) (requests : List (Fin n × Command)) :
    let reached := world.after requests
    let member := reached.member index
    member.swarm.isSome → ∀ before service behind, member.services = before ++ service :: behind →
      let named := designated before service
      (named = service ↔ ∀ other ∈ before, other.spec.name ≠ service.id) ∧
      (reached.step (World.perform index (.inspectService service.id))).1 =
        .ok (.service named) ∧
      (∀ spec answer after,
        reached.step (World.perform index (.updateService service.id spec)) = (.ok answer, after) →
        ∃ revised, answer = .service revised ∧
          Member.Respecified named spec revised member (after.member index) ∧
          ∀ other ≠ index, after.member other = reached.member other) ∧
      ∃ after, reached.step (World.perform index (.deleteService service.id)) = (.ok .done, after) ∧
        Member.Removed named member (after.member index) ∧
        ∀ other ≠ index, after.member other = reached.member other := by
  intro reached member inSwarm before service behind listed named
  obtain ⟨pairs, whole⟩ := World.whole_after started distinct requests
  have services := whole.sound.services_nodup
  have instances := whole.instances_nodup
  have found : (member.services.find? fun other => other.answersTo service.id) = some named := by
    rw [listed]
    exact find?_answersTo (listed ▸ services)
  exact ⟨designated_eq_self (listed ▸ services), World.step_inspectService inSwarm found,
    fun spec answer after run => World.step_updateService services instances found run,
    World.step_deleteService inSwarm services instances found⟩

/-- The identifier of the second service designates the first, and that of the first still
designates the first. -/
theorem ids_designate_services_namedLikeAnother :
    let reached := World.twoMembers.after World.namedLikeAnother
    ∃ first second, (reached.member 0).services = [first, second] ∧ first ≠ second ∧
      (∃ after, reached.step (World.perform 0 (.deleteService second.id)) = (.ok .done, after) ∧
        Member.Removed first (reached.member 0) (after.member 0)) ∧
      ∃ after, reached.step (World.perform 0 (.deleteService first.id)) = (.ok .done, after) ∧
        Member.Removed first (reached.member 0) (after.member 0) := by
  intro reached
  have inSwarm : (reached.member 0).swarm.isSome := by decide +kernel
  have listed : (reached.member 0).services.map (fun service => (service.id, service.spec.name)) =
      [("aaaaa", "aaaaaaaa"), ("aaaaaaaa", "second")] := by decide +kernel
  obtain ⟨first, rest, services, ofFirst, more⟩ := List.map_eq_cons_iff.mp listed
  obtain ⟨second, none, rfl, both, nil⟩ := List.map_eq_cons_iff.mp more
  obtain rfl := List.map_eq_nil_iff.mp nil
  obtain ⟨_, name⟩ := Prod.mk.inj ofFirst
  obtain ⟨id, otherName⟩ := Prod.mk.inj both
  have designates := ids_designate_services World.twoMembers 0 {} default .listening (.tally 'a')
    (World.member_start _ _ _ _ _ 0) (Supply.distinct_tally 'a') World.namedLikeAnother inSwarm
  have ofSecond : designated [first] second = first := by
    rw [designated, List.find?_cons_of_pos (by rw [name, id]; rfl), Option.getD_some]
  refine ⟨first, second, services, ?_, ?_, ?_⟩
  · rintro rfl
    exact absurd (name.symm.trans otherName) (by decide)
  · obtain ⟨_, _, _, after, run, removed, _⟩ := designates [first] second [] services
    rw [ofSecond] at removed
    exact ⟨after, run, removed⟩
  · obtain ⟨_, _, _, after, run, removed, _⟩ := designates [] first [second] services
    exact ⟨after, run, removed⟩

/-- A registered service is not the one that is inspected by its identifier, and stays
registered when its identifier is deleted. -/
theorem id_of_another_service :
    let reached := World.twoMembers.after World.namedLikeAnother
    (reached.member 0).swarm.isSome ∧
      ∃ service ∈ (reached.member 0).services,
        ((reached.member 0).inspectService service.id).toOption ≠ some service ∧
        service ∈
          ((reached.step (World.perform 0 (.deleteService service.id))).2.member 0).services := by
  decide +kernel

end SwarmManager
