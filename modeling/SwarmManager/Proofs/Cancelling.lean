import SwarmManager.Proofs.Refusals
import SwarmManager.Proofs.Separation
import SwarmManager.Proofs.Turns

/-!
# A service that comes and goes

A service that is created goes behind the others, and its tasks and their instances behind the
rest.  Updating it any number of times keeps it there, whatever it is to become: `Member.Adds` says
what a member has besides what it had.  Deleting the service by its identifier then takes out just
that, so what is left of it are draws and the turn, which went on by the tasks that were placed.

The main statement is `creating_and_deleting_cancel`.
-/

namespace SwarmManager

set_option autoImplicit false

variable {n : Nat}

/-! ## One service more -/

/-- A member has, behind what it had, one service of an identifier and the pairs of this service. -/
structure Member.Adds (before after : Member) (pairs : List Placed) (id : String) : Prop where
  services_eq : ∃ service : Service, service.id = id ∧ after.services = before.services ++ [service]
  whole : ∃ own : List Placed,
    (∀ pair ∈ own, pair.task.serviceId = id) ∧ after.Whole (pairs ++ own)

/-- Of what is there the pairs of the one service are the last ones. -/
theorem Member.Whole.pairsApart_append {before : Member} {pairs own : List Placed} {id : String}
    (whole : before.Whole pairs) (fresh : id ∉ before.services.map Service.id)
    (owned : ∀ pair ∈ own, pair.task.serviceId = id) :
    pairsApart id (pairs ++ own) = pairs := by
  have kept : pairs.filter (fun pair => pair.task.serviceId != id) = pairs := by
    refine List.filter_eq_self.mpr fun pair present => bne_iff_ne.mpr ?_
    rintro rfl
    exact fresh (whole.sound.owned pair present)
  have dropped : own.filter (fun pair => pair.task.serviceId != id) = [] :=
    List.filter_eq_nil_iff.mpr fun pair present => by simp [owned pair present]
  rw [pairsApart, List.filter_append, kept, dropped, List.append_nil]

namespace Member.Adds

variable {before after : Member} {pairs : List Placed} {id : String}

theorem created (whole : before.Whole pairs) {spec : ServiceSpec} {named : Nat} {service : Service}
    {placed : List Placed} {turn : RoundRobin}
    (created : before.Created spec named service placed turn) :
    before.Adds (before.afterCreating named service placed turn) pairs service.id where
  services_eq := ⟨service, rfl, rfl⟩
  whole := ⟨placed, fun _ present => (created.all_placed.task_links present).1,
    whole.afterCreating created⟩

theorem sameServices (adds : before.Adds after pairs id) {later : Member}
    (same : after.SameServices later) : before.Adds later pairs id := by
  obtain ⟨⟨service, identified, services⟩, own, owned, whole⟩ := adds
  exact ⟨⟨service, identified, same.services.trans services⟩, own, owned, whole.sameServices same⟩

section Unnamed

variable (adds : before.Adds after pairs id)
  (unnamed : ∀ other ∈ before.services, other.spec.name ≠ id)
include adds

/-- The identifier is a new one. -/
theorem fresh : id ∉ before.services.map Service.id := by
  obtain ⟨⟨service, rfl, services⟩, own, _, whole⟩ := adds
  have nodup := whole.sound.services_nodup
  rw [services, List.map_append, List.nodup_append] at nodup
  exact fun taken => nodup.2.2 _ taken _ List.mem_cons_self rfl

/-- The new service is there to be found. -/
theorem exists_located : ∃ place, after.locateService id = .ok place := by
  obtain ⟨⟨service, rfl, services⟩, _⟩ := adds
  have answered : (after.services.find? fun other => other.answersTo service.id).isSome := by
    refine List.find?_isSome.mpr ⟨service, ?_, by simp [Service.answersTo]⟩
    rw [services]
    exact List.mem_append_right _ List.mem_cons_self
  obtain ⟨found, first⟩ := Option.isSome_iff_exists.mp answered
  obtain ⟨place, located, _⟩ := locateService_of_find? first
  exact ⟨place, located⟩

include unnamed

/-- Nothing but the new service answers to its identifier, so what is found is this service, at the
end. -/
theorem located_last {place : Fin after.services.length}
    (located : after.locateService id = .ok place) :
    ∃ current, current.id = id ∧ after.services = before.services ++ [current] ∧
      place.val = before.services.length ∧ after.services.get place = current := by
  have fresh := adds.fresh
  obtain ⟨⟨current, rfl, services⟩, _⟩ := adds
  have answers := List.find?_some (find?_of_locateService located)
  have atMost : place.val ≤ before.services.length := by
    have inside := place.isLt
    have length := congrArg List.length services
    rw [List.length_append, List.length_singleton] at length
    omega
  have atLeast : before.services.length ≤ place.val := by
    refine Nat.le_of_not_lt fun earlier => ?_
    -- At an earlier place there would be a service of before that answers to the identifier.
    have old : after.services.get place ∈ before.services := by
      rw [List.get_eq_getElem]
      simp only [services, List.getElem_append_left earlier]
      exact List.getElem_mem earlier
    rcases Bool.or_eq_true_iff.mp answers with byId | byName
    · exact fresh (beq_iff_eq.mp byId ▸ List.mem_map_of_mem old)
    · exact unnamed _ old (beq_iff_eq.mp byName)
  have last := Nat.le_antisymm atMost atLeast
  refine ⟨current, rfl, services, last, ?_⟩
  rw [List.get_eq_getElem]
  simp [services, last]

section Pairs

variable (whole : before.Whole pairs)
include whole

/-- Updating the service replaces its own pairs only. -/
theorem updated {spec : ServiceSpec} {place : Fin after.services.length} {service : Service}
    {placed : List Placed} {turn : RoundRobin}
    (updated : after.Updated id spec place service placed turn) :
    before.Adds (after.afterUpdating place service placed turn) pairs id := by
  have fresh := adds.fresh
  obtain ⟨current, rfl, services, last, there⟩ := adds.located_last unnamed updated.located
  obtain ⟨own, owned, wholeAfter⟩ := adds.whole
  have sameId : service.id = current.id := by
    rw [updated.service_eq, there]
    rfl
  refine ⟨⟨service, sameId, ?_⟩, placed, ?_, ?_⟩
  · change after.services.set place service = _
    rw [last, services, List.set_append_right _ _ (Nat.le_refl _), Nat.sub_self]
    rfl
  · exact fun pair present => (updated.all_placed.task_links present).1.trans sameId
  · have replaced := wholeAfter.afterUpdating updated
    rwa [sameId, whole.pairsApart_append fresh owned] at replaced

/-- Deleting the service leaves what there was before it. -/
theorem deleted {place : Fin after.services.length}
    (located : after.locateService id = .ok place) :
    (after.afterDeleting place).services = before.services ∧
      (after.afterDeleting place).tasks = before.tasks ∧
      (after.afterDeleting place).instances = before.instances := by
  have fresh := adds.fresh
  obtain ⟨current, rfl, services, last, there⟩ := adds.located_last unnamed located
  obtain ⟨own, owned, wholeAfter⟩ := adds.whole
  have left := (wholeAfter.afterDeleting place).paired
  rw [there, whole.pairsApart_append fresh owned] at left
  refine ⟨?_, left.tasks_eq.trans whole.paired.tasks_eq.symm, ?_⟩
  · change fillGap after.services place = _
    rw [last, fillGap, services, List.getLast?_concat, List.dropLast_concat]
    exact List.set_eq_of_length_le (Nat.le_refl _)
  · have listed := left.instances_eq.trans whole.paired.instances_eq.symm
    exact congrArg InstanceRegistry.mk listed

end Pairs

end Unnamed

end Member.Adds

/-! ## Runs of requests about services -/

/-- A request that gave a service a spec ended with this service. -/
theorem Command.eq_ok_of_settled? {command : Command} {outcome : Except Halt Answer}
    {service : Service} (settled : command.settled? outcome = some service) :
    outcome = .ok (.service service) := by
  unfold Command.settled? at settled
  split at settled
  · exact congrArg _ (congrArg _ (Option.some.inj settled))
  · exact congrArg _ (congrArg _ (Option.some.inj settled))
  · cases settled

namespace World

/-- Requests about services leave alone who is in which swarm, lists whom and listens where. -/
theorem sameMembership_after (world : World n) {requests : List (Fin n × Command)}
    (scheduling : ∀ request ∈ requests, request.2.schedules = true) :
    (∀ probe, (world.member probe).SameMembership ((world.after requests).member probe)) ∧
      (world.after requests).network.openSockets = world.network.openSockets := by
  induction requests using List.reverseRecOn with
  | nil => exact ⟨fun probe => .refl _, rfl⟩
  | append_singleton requests request ih =>
    obtain ⟨members, sockets⟩ := ih fun other listed =>
      scheduling other (List.mem_append_left _ listed)
    have last := scheduling request (List.mem_append_right _ (List.mem_singleton_self request))
    have same := SameMembership.perform (world.after requests) request.1
      (Command.isAboutNodes_of_schedules last)
    rw [after_append]
    refine ⟨fun probe => (members probe).trans (same.member probe), ?_⟩
    rw [openSockets_step, same.network_eq, sockets]

/-- Requests about services leave the nodes of a member the same. -/
theorem steadyNodes_of_schedules (world : World n) (index : Fin n)
    {requests : List (Fin n × Command)}
    (scheduling : ∀ request ∈ requests, request.2.schedules = true) :
    world.SteadyNodes requests index := by
  induction requests using List.reverseRecOn with
  | nil => exact fun event listed => absurd listed List.not_mem_nil
  | append_singleton requests request ih =>
    have earlier : ∀ other ∈ requests, other.2.schedules = true := fun other listed =>
      scheduling other (List.mem_append_left _ listed)
    intro event listed
    rw [history_append] at listed
    rcases List.mem_append.mp listed with old | new
    · exact ih earlier event old
    · rw [List.mem_singleton.mp new]
      exact ((world.sameMembership_after earlier).1 index).nodes

/-- A service that was created was placed behind the others. -/
theorem created_of_success {world : World n} {index : Fin n} {spec : ServiceSpec}
    {service : Service}
    (success : (world.step (perform index (.createService spec))).1 = .ok (.service service)) :
    ∃ named placed turn, (world.member index).Created spec named service placed turn ∧
      (world.step (perform index (.createService spec))).2.member index =
        (world.member index).afterCreating named service placed turn := by
  rcases Member.run_createService (world.member index) spec with
    ⟨error, count, _, run⟩ | ⟨named, other, placed, turn, created, run⟩
  · cases (step_act Answer.service run).1.symm.trans success
  · obtain ⟨outcome, left⟩ := step_act Answer.service run
    cases outcome.symm.trans success
    exact ⟨named, placed, turn, created, left⟩

/-- As long as the requests are updates of the new service, it is all that is added. -/
theorem adds_after {before : Member} {pairs : List Placed} {id : String} {world : World n}
    {index : Fin n} (adds : before.Adds (world.member index) pairs id)
    (unnamed : ∀ other ∈ before.services, other.spec.name ≠ id) (whole : before.Whole pairs)
    (specs : List ServiceSpec) :
    before.Adds
      ((world.after (specs.map fun spec => (index, Command.updateService id spec))).member index)
      pairs id := by
  induction specs using List.reverseRecOn with
  | nil => exact adds
  | append_singleton specs spec ih =>
    rw [List.map_append, List.map_singleton, after_append, member_step]
    have step := serviceStep_perform
      (world.after (specs.map fun spec => (index, Command.updateService id spec))) index
      (.updateService id spec)
    generalize ((perform index (.updateService id spec)).run.run _).2.member index = later at step
    generalize ((perform index (.updateService id spec)).run.run _).1 = outcome at step
    cases step with
    | kept same => exact ih.sameServices same
    | updated updated => exact ih.updated unnamed whole updated

end World

/-- **Creating and deleting a service cancel out.**  In a state that a run of a member that was just
started reaches, with draws that do not repeat, let a service be created whose identifier is not the
name of another one.  After any number of updates of it, with any specs, whether they succeed or
not, it is deleted by its identifier.  Then the services, tasks and instances are those of before,
in the same order, the turn has moved on by the tasks that were placed in between, and nothing else
has happened but draws: every member lists the same nodes in the same swarm and listens where it
did. -/
theorem creating_and_deleting_cancel (world : World n) (index : Fin n) (settings : Settings)
    (machine : Machine) (observer : Observer) (supply : Supply)
    (started : world.member index = .start settings machine observer supply)
    (distinct : supply.Distinct) (requests : List (Fin n × Command)) (spec : ServiceSpec)
    (service : Service) (specs : List ServiceSpec) :
    let reached := world.after requests
    let before := reached.member index
    let creating := (index, Command.createService spec)
    let updating := specs.map fun spec => (index, Command.updateService service.id spec)
    let deleted := (reached.after (creating :: updating)).step
      (World.perform index (.deleteService service.id))
    let after := deleted.2.member index
    (reached.step (World.perform index (.createService spec))).1 = .ok (.service service) →
    (∀ other ∈ before.services, other.spec.name ≠ service.id) →
    deleted.1 = .ok .done ∧
      after.services = before.services ∧ after.tasks = before.tasks ∧
      after.instances = before.instances ∧
      after.turn = before.turn.after before.nodes.length
        (reached.placements (creating :: updating) index).length ∧
      (∀ probe, (reached.member probe).SameMembership (deleted.2.member probe)) ∧
      deleted.2.network.openSockets = reached.network.openSockets ∧
      ∀ probe, probe ≠ index → (reached.member probe).SameServices (deleted.2.member probe) := by
  intro reached before creating updating deleted after success unnamed
  obtain ⟨pairs, whole⟩ : ∃ pairs, before.Whole pairs := World.whole_after started distinct requests
  obtain ⟨named, placed, turn, created, left⟩ := World.created_of_success success
  have scheduling : ∀ request ∈ creating :: updating, request.2.schedules = true := by
    intro request listed
    rcases List.mem_cons.mp listed with rfl | later
    · rfl
    · obtain ⟨_, _, rfl⟩ := List.mem_map.mp later
      rfl
  have elsewhere : ∀ probe, probe ≠ index → ∀ request ∈ creating :: updating, request.1 = probe →
      request.2.isAboutNodes = true := by
    intro probe apart request listed asked
    rcases List.mem_cons.mp listed with rfl | later
    · exact absurd asked.symm apart
    · obtain ⟨_, _, rfl⟩ := List.mem_map.mp later
      exact absurd asked.symm apart
  obtain ⟨membership, sockets⟩ := reached.sameMembership_after scheduling
  have inTurn := World.inTurn_after (reached.steadyNodes_of_schedules index scheduling)
  have adds : before.Adds ((reached.after (creating :: updating)).member index) pairs service.id :=
    World.adds_after (left ▸ .created whole created) unnamed whole specs
  obtain ⟨place, located⟩ := adds.exists_located
  have inSwarm : ((reached.after (creating :: updating)).member index).swarm.isSome := by
    rw [(membership index).swarm]
    exact created.inSwarm
  obtain ⟨outcome, last⟩ :=
    World.step_act (fun _ => Answer.done) (Member.run_deleteService_located inSwarm located)
  obtain ⟨services, tasks, instances⟩ := adds.deleted unnamed whole located
  have about : (Command.deleteService service.id).isAboutNodes = false := rfl
  have same := World.SameMembership.perform (reached.after (creating :: updating)) index about
  have reaches :
      after = ((reached.after (creating :: updating)).member index).afterDeleting place := last
  rw [← reaches] at services tasks instances
  refine ⟨outcome, services, tasks, instances, ?_, fun probe => (membership probe).trans
    (same.member probe), ?_, fun probe apart => ?_⟩
  · rw [reaches]
    exact inTurn.turnAfter_eq
  · rw [World.openSockets_step, same.network_eq, sockets]
  · have step := World.sameServices_perform (reached.after (creating :: updating)) apart
      (.deleteService service.id)
    exact (reached.sameServices_after probe (elsewhere probe apart)).trans step

/-- Three tasks are placed and taken away, the name of another service is refused, and one task is
placed on each of two nodes, before the service is deleted. -/
theorem creating_and_deleting_cancel_rescheduled :
    let reached := World.twoMembers.after World.twoServices
    let spec : ServiceSpec := { name := "db", mode := some { replicated := some ⟨some 3⟩ } }
    let specs : List ServiceSpec := [{ mode := some { replicated := some ⟨some 0⟩ } },
      { name := "site" }, { name := "all", mode := some { global := some {} } }]
    let id := "aaaaaaaaaaaaaaaa"
    let requests := (0, .createService spec) :: specs.map fun spec => (0, .updateService id spec)
    let updated := reached.after requests
    let deleted := updated.step (World.perform 0 (.deleteService id))
    (updated.member 0).services ≠ (reached.member 0).services ∧
      (reached.placements requests 0).length = 5 ∧ deleted.1 = .ok .done ∧
      (deleted.2.member 0).services = (reached.member 0).services ∧
      (deleted.2.member 0).tasks = (reached.member 0).tasks ∧
      (deleted.2.member 0).instances = (reached.member 0).instances ∧
      (deleted.2.member 0).turn = (reached.member 0).turn.after 2 5 := by
  intro reached spec specs id requests updated deleted
  have settled : ((Command.createService spec).settled?
      (reached.step (World.perform 0 (.createService spec))).1).map Service.id = some id := by
    decide +kernel
  obtain ⟨service, settled, same⟩ := Option.map_eq_some_iff.mp settled
  have placed : (reached.placements requests 0).length = 5 := by decide +kernel
  have nodes : (reached.member 0).nodes.length = 2 := by decide +kernel
  have unnamed : ∀ other ∈ (reached.member 0).services, other.spec.name ≠ id := by decide +kernel
  have cancels := creating_and_deleting_cancel World.twoMembers 0 {} default .listening (.tally 'a')
    (World.member_start _ _ _ _ _ 0) (Supply.distinct_tally 'a') World.twoServices spec service
    specs (Command.eq_ok_of_settled? settled) (same ▸ unnamed)
  rw [same] at cancels
  obtain ⟨outcome, services, tasks, instances, turn, _⟩ := cancels
  exact ⟨by decide +kernel, placed, outcome, services, tasks, instances,
    turn.trans (congrArg₂ (reached.member 0).turn.after nodes placed)⟩

end SwarmManager
