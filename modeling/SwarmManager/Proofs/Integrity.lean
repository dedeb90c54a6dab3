import SwarmManager.Proofs.Keyed
import SwarmManager.Proofs.Start
import SwarmManager.Proofs.Steps

/-!
# Services, tasks and instances stay together

A member keeps its tasks and the instances behind them in two registries.  Both
are the columns of one list of pairs (`Member.Paired`): what is placed is appended
to both, and what belongs to a service is taken out of both.  Taking instances out
goes by identifier, so this needs that no identifier is in use twice, and that in
turn follows from draws being distinct (`Sound`).

The main statement is `instances_follow_tasks`, about every run of every world.
-/

namespace SwarmManager

set_option autoImplicit false

/-! ## The two registries as columns -/

/-- A list of pairs whose tasks and instances are those of a member, in order. -/
structure Member.Paired (member : Member) (pairs : List Placed) : Prop where
  tasks_eq : member.tasks = pairs.map Placed.task
  instances_eq : member.instances.toList = pairs.map Placed.process
  linked : ∀ pair ∈ pairs, pair.task.containerId = pair.process.id

/-- The pairs whose task belongs to another service. -/
def pairsApart (serviceId : String) (pairs : List Placed) : List Placed :=
  pairs.filter fun pair => pair.task.serviceId != serviceId

namespace Member.Paired

variable {member : Member} {pairs : List Placed}

/-- The pairs are seen from the two registries alone. -/
theorem of_eq (paired : member.Paired pairs) {after : Member} (tasks : after.tasks = member.tasks)
    (instances : after.instances = member.instances) : after.Paired pairs :=
  ⟨tasks.trans paired.tasks_eq, instances ▸ paired.instances_eq, paired.linked⟩

/-- What is registered goes behind what there is. -/
theorem register (paired : member.Paired pairs) {placed : List Placed}
    (linked : ∀ pair ∈ placed, pair.task.containerId = pair.process.id) :
    (member.register placed).Paired (pairs ++ placed) where
  tasks_eq := by rw [tasks_register, paired.tasks_eq, List.map_append]
  instances_eq := by rw [instances_register, paired.instances_eq, List.map_append]
  linked pair present := (List.mem_append.mp present).elim (paired.linked pair) (linked pair)

/-- The identifiers of the instances to be removed with the tasks of a service are
those of the pairs of that service. -/
theorem removed_ids (paired : member.Paired pairs) (serviceId : String) :
    (member.tasks.filter fun task => task.serviceId == serviceId).map Task.containerId =
      (pairs.filter fun pair => pair.task.serviceId == serviceId).map
        fun pair => pair.process.id := by
  rw [paired.tasks_eq, List.filter_map, List.map_map]
  refine List.map_congr_left fun pair present => ?_
  exact paired.linked pair (List.mem_of_mem_filter present)

/-- The tasks of a service are removed together with their instances. -/
theorem withoutTasksOf (paired : member.Paired pairs)
    (nodup : (pairs.map fun pair => pair.process.id).Nodup) (serviceId : String) :
    (member.withoutTasksOf serviceId).Paired (pairsApart serviceId pairs) where
  tasks_eq := by
    rw [tasks_withoutTasksOf, paired.tasks_eq, List.filter_map]
    rfl
  instances_eq := by
    have distinct : (member.instances.toList.map ProcessInstance.id).Nodup := by
      rw [paired.instances_eq, List.map_map]
      exact nodup
    rw [instances_withoutTasksOf, InstanceRegistry.toList_removeAll distinct, paired.removed_ids,
      paired.instances_eq, List.filter_map]
    refine congrArg (List.map Placed.process) (List.filter_congr fun pair present => ?_)
    -- Identifiers are not shared, so an instance is removed exactly if its own task is.
    have removed : (∃ other ∈ pairs.filter fun pair => pair.task.serviceId == serviceId,
        other.process.id = pair.process.id) ↔ pair.task.serviceId = serviceId := by
      constructor
      · rintro ⟨other, member, same⟩
        obtain ⟨otherPresent, owned⟩ := List.mem_filter.mp member
        obtain rfl := List.inj_on_of_nodup_map nodup otherPresent present same
        simpa using owned
      · intro owned
        exact ⟨pair, List.mem_filter.mpr ⟨present, by simpa using owned⟩, rfl⟩
    rw [Bool.eq_iff_iff]
    simpa [List.contains_iff_mem] using not_congr removed
  linked pair present := paired.linked pair (List.mem_of_mem_filter present)

end Member.Paired

/-! ## Identifiers in use -/

/-- Services and pairs fit each other and a supply: every task belongs to a
registered service, and no identifier is in use twice or still to be handed out. -/
structure Sound (services : List Service) (supply : Supply) (pairs : List Placed) : Prop where
  owned : ∀ pair ∈ pairs, pair.task.serviceId ∈ services.map Service.id
  services_nodup : (services.map Service.id).Nodup
  tasks_nodup : (pairs.map fun pair => pair.task.id).Nodup
  processes_nodup : (pairs.map fun pair => pair.process.id).Nodup
  services_used : ∀ service ∈ services, supply.Used service.id
  tasks_used : ∀ pair ∈ pairs, supply.Used pair.task.id
  processes_used : ∀ pair ∈ pairs, supply.Used pair.process.id

namespace Sound

variable {services : List Service} {supply : Supply} {pairs : List Placed}

theorem ahead (sound : Sound services supply pairs) (count : Nat) :
    Sound services (supply.ahead count) pairs :=
  { sound with
    services_used := fun service present => (sound.services_used service present).ahead count
    tasks_used := fun pair present => (sound.tasks_used pair present).ahead count
    processes_used := fun pair present => (sound.processes_used pair present).ahead count }

/-- Nothing is wrong with fewer pairs. -/
theorem sublist (sound : Sound services supply pairs) {fewer : List Placed}
    (sub : fewer.Sublist pairs) : Sound services supply fewer where
  owned pair present := sound.owned pair (sub.subset present)
  services_nodup := sound.services_nodup
  tasks_nodup := sound.tasks_nodup.sublist (sub.map _)
  processes_nodup := sound.processes_nodup.sublist (sub.map _)
  services_used := sound.services_used
  tasks_used pair present := sound.tasks_used pair (sub.subset present)
  processes_used pair present := sound.processes_used pair (sub.subset present)

/-- A new service may be registered under a draw to come. -/
theorem addService (sound : Sound services supply pairs) (distinct : supply.Distinct)
    {service : Service} {offset : Nat} (drawn : service.id = (supply.ahead offset).next.id) :
    Sound (services ++ [service]) (supply.ahead (offset + 1)) pairs := by
  refine { sound.ahead (offset + 1) with owned := ?_, services_nodup := ?_, services_used := ?_ }
  · intro pair present
    rw [List.map_append]
    exact List.mem_append_left _ (sound.owned pair present)
  · rw [List.map_append, List.nodup_append]
    refine ⟨sound.services_nodup, List.nodup_singleton _, ?_⟩
    rintro id old _ (new : _ ∈ [service.id]) rfl
    obtain ⟨other, present, rfl⟩ := List.mem_map.mp old
    have used := sound.services_used other present
    rw [List.mem_singleton.mp new, drawn] at used
    exact supply.not_used_next_ahead distinct offset used
  · intro other present
    rcases List.mem_append.mp present with old | new
    · exact (sound.services_used other old).ahead _
    · rw [List.mem_singleton.mp new, drawn]
      exact supply.used_next_ahead (Nat.lt_succ_self offset)

/-- Services may change in everything but their identifiers. -/
theorem sameIds (sound : Sound services supply pairs) {revised : List Service}
    (same : revised.map Service.id = services.map Service.id) : Sound revised supply pairs := by
  refine { sound with
    owned := same ▸ sound.owned
    services_nodup := same ▸ sound.services_nodup
    services_used := ?_ }
  intro service present
  have listed : service.id ∈ services.map Service.id := same ▸ List.mem_map_of_mem present
  obtain ⟨other, old, sameId⟩ := List.mem_map.mp listed
  exact sameId ▸ sound.services_used other old

/-- The tasks placed for a registered service go with those there are. -/
theorem append (sound : Sound services supply pairs) (distinct : supply.Distinct)
    {nodes : List Node} {service : Service} {suffix : String} {turn turnAfter : RoundRobin}
    {placed : List Placed} (registered : service.id ∈ services.map Service.id)
    (all : PlacedFrom nodes service suffix placed.length 0 turn supply placed turnAfter) :
    Sound services (supply.ahead (2 * placed.length)) (pairs ++ placed) := by
  have fresh : ∀ {id : String} {offset : Nat}, id = (supply.ahead offset).next.id →
      ¬ supply.Used id := fun drawn used => supply.not_used_next_ahead distinct _ (drawn ▸ used)
  refine { sound.ahead (2 * placed.length) with
    owned := ?_, tasks_nodup := ?_, processes_nodup := ?_, tasks_used := ?_, processes_used := ?_ }
  · intro pair present
    rcases List.mem_append.mp present with old | new
    · exact sound.owned pair old
    · rw [(all.task_links new).1]
      exact registered
  · rw [List.map_append, List.nodup_append]
    refine ⟨sound.tasks_nodup, all.nodup_taskIds distinct, ?_⟩
    rintro id old _ new rfl
    obtain ⟨other, otherPresent, rfl⟩ := List.mem_map.mp old
    obtain ⟨pair, present, same⟩ := List.mem_map.mp new
    obtain ⟨⟨offset, _, drawn⟩, _⟩ := all.draws present
    exact fresh drawn (same ▸ sound.tasks_used other otherPresent)
  · rw [List.map_append, List.nodup_append]
    refine ⟨sound.processes_nodup, all.nodup_processIds distinct, ?_⟩
    rintro id old _ new rfl
    obtain ⟨other, otherPresent, rfl⟩ := List.mem_map.mp old
    obtain ⟨pair, present, same⟩ := List.mem_map.mp new
    obtain ⟨_, offset, _, drawn⟩ := all.draws present
    exact fresh drawn (same ▸ sound.processes_used other otherPresent)
  · intro pair present
    rcases List.mem_append.mp present with old | new
    · exact (sound.tasks_used pair old).ahead _
    · obtain ⟨⟨offset, inside, drawn⟩, _⟩ := all.draws new
      exact drawn ▸ supply.used_next_ahead inside
  · intro pair present
    rcases List.mem_append.mp present with old | new
    · exact (sound.processes_used pair old).ahead _
    · obtain ⟨_, offset, inside, drawn⟩ := all.draws new
      exact drawn ▸ supply.used_next_ahead inside

/-- A service may be dropped with its pairs. -/
theorem dropService (sound : Sound services supply pairs) (place : Fin services.length)
    {remaining : List Service} (perm : remaining.Perm (services.eraseIdx place)) :
    Sound remaining supply (pairsApart (services.get place).id pairs) := by
  have sub : (services.eraseIdx place).Sublist services := List.eraseIdx_sublist _ _
  have kept := sound.sublist (List.filter_sublist (p := fun pair =>
    pair.task.serviceId != (services.get place).id) (l := pairs))
  refine { kept with owned := ?_, services_nodup := ?_, services_used := ?_ }
  · intro pair present
    obtain ⟨old, apart⟩ := List.mem_filter.mp present
    obtain ⟨service, registered, owner⟩ := List.mem_map.mp (sound.owned pair old)
    have different : service.id ≠ (services.get place).id := by
      rw [owner]
      simpa using apart
    have kept := mem_eraseIdx_of_key_ne Service.id registered different
    exact List.mem_map.mpr ⟨service, perm.mem_iff.mpr kept, owner⟩
  · exact (perm.map Service.id).nodup_iff.mpr (sound.services_nodup.sublist (sub.map _))
  · intro service present
    exact sound.services_used service (sub.subset (perm.mem_iff.mp present))

end Sound

/-! ## Steps and runs -/

/-- A member whose tasks and instances are the columns of some pairs, with no
identifier in use twice. -/
structure Member.Whole (member : Member) (pairs : List Placed) : Prop where
  distinct : member.supply.Distinct
  paired : member.Paired pairs
  sound : Sound member.services member.supply pairs

namespace Member.Whole

variable {member : Member} {pairs : List Placed}

theorem start (settings : Settings) (machine : Machine) (observer : Observer) {supply : Supply}
    (distinct : supply.Distinct) : (Member.start settings machine observer supply).Whole [] where
  distinct := distinct
  paired := ⟨rfl, rfl, fun _ none => absurd none List.not_mem_nil⟩
  sound :=
    { owned := fun _ none => absurd none List.not_mem_nil
      services_nodup := List.nodup_nil
      tasks_nodup := List.nodup_nil
      processes_nodup := List.nodup_nil
      services_used := fun _ none => absurd none List.not_mem_nil
      tasks_used := fun _ none => absurd none List.not_mem_nil
      processes_used := fun _ none => absurd none List.not_mem_nil }

theorem sameServices (whole : member.Whole pairs) {after : Member}
    (same : member.SameServices after) : after.Whole pairs := by
  obtain ⟨count, drawn⟩ := same.supply
  refine ⟨drawn ▸ whole.distinct.ahead count, whole.paired.of_eq same.tasks same.instances, ?_⟩
  rw [same.services, drawn]
  exact whole.sound.ahead count

/-- Creating a service appends the pairs placed for it. -/
theorem afterCreating (whole : member.Whole pairs) {spec : ServiceSpec} {named : Nat}
    {service : Service} {placed : List Placed} {turn : RoundRobin}
    (created : member.Created spec named service placed turn) :
    (member.afterCreating named service placed turn).Whole (pairs ++ placed) := by
  have supplied : (member.afterCreating named service placed turn).supply =
      (member.supply.ahead (named + 1)).ahead (2 * placed.length) := by
    rw [Supply.ahead_ahead]
    exact supply_register _ placed
  have drawn : service.id = (member.supply.ahead named).next.id := by
    rw [created.service_eq]
    rfl
  have paired : ({ member.drew (named + 1 + 2 * placed.length) with turn := turn }).Paired pairs :=
    whole.paired.of_eq rfl rfl
  refine ⟨supplied ▸ (whole.distinct.ahead _).ahead _, ?_, ?_⟩
  · exact (paired.register fun pair present => (created.all_placed.task_links present).2).of_eq
      rfl rfl
  · rw [supplied]
    refine (whole.sound.addService whole.distinct drawn).append (whole.distinct.ahead _) ?_
      created.all_placed
    exact List.mem_map_of_mem (List.mem_append_right _ (List.mem_singleton_self service))

/-- Updating a service keeps the identifiers of services. -/
theorem map_id_set {place : Fin member.services.length} {service : Service}
    (same : service.id = (member.services.get place).id) :
    (member.services.set place service).map Service.id = member.services.map Service.id := by
  have inside : place.val < (member.services.map Service.id).length := by
    rw [List.length_map]
    exact place.isLt
  have unchanged : service.id = (member.services.map Service.id).get ⟨place, inside⟩ := by
    rw [same, List.get_eq_getElem, List.get_eq_getElem, List.getElem_map]
  rw [List.map_set, unchanged]
  exact List.set_getElem_self inside

/-- Updating a service takes its pairs out and appends those placed for it. -/
theorem afterUpdating (whole : member.Whole pairs) {asked : String} {spec : ServiceSpec}
    {place : Fin member.services.length} {service : Service} {placed : List Placed}
    {turn : RoundRobin} (updated : member.Updated asked spec place service placed turn) :
    (member.afterUpdating place service placed turn).Whole
      (pairsApart service.id pairs ++ placed) := by
  have supplied : (member.afterUpdating place service placed turn).supply =
      (member.supply.ahead 1).ahead (2 * placed.length) := by
    rw [Supply.ahead_ahead]
    exact supply_register _ placed
  have sameId : service.id = (member.services.get place).id := by
    rw [updated.service_eq]
    rfl
  have paired : ({ member.drew (1 + 2 * placed.length) with turn := turn }).Paired pairs :=
    whole.paired.of_eq rfl rfl
  have removed := paired.withoutTasksOf whole.sound.processes_nodup service.id
  refine ⟨supplied ▸ (whole.distinct.ahead _).ahead _, ?_, ?_⟩
  · exact (removed.register fun pair present => (updated.all_placed.task_links present).2).of_eq
      rfl rfl
  · rw [supplied]
    have remaining := (whole.sound.sameIds (map_id_set sameId)).ahead 1
    refine (remaining.sublist List.filter_sublist).append (whole.distinct.ahead _) ?_
      updated.all_placed
    exact List.mem_map_of_mem (List.mem_set place.isLt service)

/-- Deleting a service takes its pairs out. -/
theorem afterDeleting (whole : member.Whole pairs) (place : Fin member.services.length) :
    (member.afterDeleting place).Whole (pairsApart (member.services.get place).id pairs) := by
  have paired : ({ member with services := fillGap member.services place }).Paired pairs :=
    whole.paired.of_eq rfl rfl
  refine ⟨whole.distinct, ?_, ?_⟩
  · exact paired.withoutTasksOf whole.sound.processes_nodup _
  · exact whole.sound.dropService place (perm_fillGap _ place.isLt)

/-- What a step does to services, it keeps them whole. -/
theorem step (whole : member.Whole pairs) {command : Command} {outcome : Except Halt Answer}
    {after : Member} (step : ServiceStep member command outcome after) :
    ∃ pairs, after.Whole pairs := by
  cases step with
  | kept same => exact ⟨pairs, whole.sameServices same⟩
  | created created => exact ⟨_, whole.afterCreating created⟩
  | updated updated => exact ⟨_, whole.afterUpdating updated⟩
  | deleted => exact ⟨_, whole.afterDeleting _⟩

end Member.Whole

/-- In every run a member that was just started stays whole. -/
theorem World.whole_after {n : Nat} {world : World n} {index : Fin n} {settings : Settings}
    {machine : Machine} {observer : Observer} {supply : Supply}
    (started : world.member index = .start settings machine observer supply)
    (distinct : supply.Distinct) (requests : List (Fin n × Command)) :
    ∃ pairs, ((world.after requests).member index).Whole pairs := by
  refine World.after_induction (motive := fun _ member => ∃ pairs, member.Whole pairs) ?_ ?_ ?_
    requests
  · exact ⟨[], started ▸ .start settings machine observer distinct⟩
  · rintro _ _ _ _ same ⟨pairs, whole⟩
    exact ⟨pairs, whole.sameServices same⟩
  · rintro _ _ _ step ⟨pairs, whole⟩
    exact whole.step step

/-- **Services, tasks and instances stay together.**  After every run of a member
that was just started, with draws that do not repeat, the instances are those of the
tasks, in the same order; every task belongs to exactly one registered service; and
services, tasks and instances have identifiers of their own. -/
theorem instances_follow_tasks {n : Nat} (world : World n) (index : Fin n) (settings : Settings)
    (machine : Machine) (observer : Observer) (supply : Supply)
    (started : world.member index = .start settings machine observer supply)
    (distinct : supply.Distinct) (requests : List (Fin n × Command)) :
    let member := (world.after requests).member index
    member.instances.toList.map ProcessInstance.id = member.tasks.map Task.containerId ∧
      (∀ task ∈ member.tasks, (member.services.map Service.id).count task.serviceId = 1) ∧
      (member.services.map Service.id).Nodup ∧ (member.tasks.map Task.id).Nodup ∧
      (member.instances.toList.map ProcessInstance.id).Nodup := by
  intro member
  obtain ⟨pairs, whole⟩ := World.whole_after started distinct requests
  obtain ⟨tasks, instances, linked⟩ := whole.paired
  refine ⟨?_, ?_, whole.sound.services_nodup, ?_, ?_⟩
  · rw [tasks, instances, List.map_map, List.map_map]
    exact List.map_congr_left fun pair present => (linked pair present).symm
  · intro task present
    rw [tasks] at present
    obtain ⟨pair, pairPresent, rfl⟩ := List.mem_map.mp present
    exact List.count_eq_one_of_mem whole.sound.services_nodup (whole.sound.owned pair pairPresent)
  · rw [tasks, List.map_map]
    exact whole.sound.tasks_nodup
  · rw [instances, List.map_map]
    exact whole.sound.processes_nodup

theorem instances_follow_tasks_twoServices :
    let member := (World.twoMembers.after World.twoServices).member 0
    member.tasks.length = 3 ∧
      member.instances.toList.map ProcessInstance.id = member.tasks.map Task.containerId ∧
      (∀ task ∈ member.tasks, (member.services.map Service.id).count task.serviceId = 1) ∧
      (member.services.map Service.id).Nodup ∧ (member.tasks.map Task.id).Nodup ∧
      (member.instances.toList.map ProcessInstance.id).Nodup :=
  ⟨by decide +kernel,
    instances_follow_tasks World.twoMembers 0 {} default .listening (.tally 'a')
      (World.member_start _ _ _ _ _ 0) (Supply.distinct_tally 'a') World.twoServices⟩

end SwarmManager
