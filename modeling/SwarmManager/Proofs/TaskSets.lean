import SwarmManager.Proofs.History
import SwarmManager.Proofs.Integrity
import Mathlib.Algebra.Group.Nat.Defs
import Mathlib.Logic.Function.Basic

/-!
# What services run

The tasks of a service stand together in one block, and each of them is what placing
gives at its index in the block for the spec the service has now (`Settled`).  How
long the block is was decided when the service was last given a spec, by the number
of nodes there were then.

A member is `Tended` if that holds of all its services.  Creating and updating
append the block of one service, and whatever takes out the tasks of another leaves
the block whole, so every run keeps a member tended.  The main statement is
`services_run_their_specs`.
-/

namespace SwarmManager

set_option autoImplicit false

/-! ## The block of a service -/

/-- The pair is what placing gives for a service at an index. -/
def Placed.Fits (pair : Placed) (service : Service) (suffix : String) (index : Nat) : Prop :=
  ∃ node supply, pair = (placeOn service suffix index node supply).1

/-- Of some pairs, those of a service are a block: as many as it wants on so many
nodes, each fitting its index. -/
structure Block (service : Service) (suffix : String) (nodeCount : Nat)
    (pairs before block after : List Placed) : Prop where
  pairs_eq : pairs = before ++ block ++ after
  others : ∀ pair ∈ before ++ after, pair.task.serviceId ≠ service.id
  wanted : service.spec.desiredTasks nodeCount = .ok block.length
  fits : ∀ (index : Nat) (pair : Placed), block[index]? = some pair → pair.Fits service suffix index

namespace Block

variable {service : Service} {suffix : String} {nodeCount : Nat}
  {pairs before block after : List Placed}

/-- All of the block belongs to the service. -/
theorem owned (stands : Block service suffix nodeCount pairs before block after) {pair : Placed}
    (present : pair ∈ block) : pair.task.serviceId = service.id := by
  obtain ⟨index, found⟩ := List.mem_iff_getElem?.mp present
  obtain ⟨node, supply, rfl⟩ := stands.fits index pair found
  rfl

/-- A block stays whole if tasks of another service go behind it. -/
theorem append (stands : Block service suffix nodeCount pairs before block after)
    {placed : List Placed} (others : ∀ pair ∈ placed, pair.task.serviceId ≠ service.id) :
    Block service suffix nodeCount (pairs ++ placed) before block (after ++ placed) where
  pairs_eq := by rw [stands.pairs_eq, List.append_assoc _ after]
  others pair present := by
    rw [← List.append_assoc] at present
    rcases List.mem_append.mp present with old | new
    · exact stands.others pair old
    · exact others pair new
  wanted := stands.wanted
  fits := stands.fits

/-- A block stays whole if the tasks of another service are taken out. -/
theorem apart (stands : Block service suffix nodeCount pairs before block after)
    {serviceId : String} (different : service.id ≠ serviceId) :
    Block service suffix nodeCount (pairsApart serviceId pairs) (pairsApart serviceId before) block
      (pairsApart serviceId after) where
  pairs_eq := by
    have kept : pairsApart serviceId block = block :=
      List.filter_eq_self.mpr fun pair present => by simpa [stands.owned present] using different
    rw [stands.pairs_eq]
    simp only [pairsApart, List.filter_append] at kept ⊢
    rw [kept]
  others pair present := by
    refine stands.others pair ?_
    rw [pairsApart, pairsApart, ← List.filter_append] at present
    exact List.mem_of_mem_filter present
  wanted := stands.wanted
  fits := stands.fits

/-- What is placed for a service is its block, if it had no tasks before. -/
theorem placed {nodes : List Node} {turn turnAfter : RoundRobin} {supply : Supply}
    {placed : List Placed} (others : ∀ pair ∈ pairs, pair.task.serviceId ≠ service.id)
    (wanted : service.spec.desiredTasks nodes.length = .ok placed.length)
    (all : PlacedFrom nodes service suffix placed.length 0 turn supply placed turnAfter) :
    Block service suffix nodes.length (pairs ++ placed) pairs placed [] where
  pairs_eq := (List.append_nil _).symm
  others pair present := others pair (by simpa using present)
  wanted := wanted
  fits index pair found := by
    have inside : index < placed.length := (List.getElem?_eq_some_iff.mp found).1
    obtain ⟨node, _, item⟩ := all.at_offset index inside
    refine ⟨node, supply.ahead (2 * index), ?_⟩
    rw [found, Nat.zero_add] at item
    exact Option.some.inj item

end Block

/-! ## Members whose services run what they are to run -/

/-- The ending of the names of the instances of a service that was updated so
often. -/
def suffixAfter (updates : Nat) : String := if updates = 0 then "" else Member.updatedSuffix

/-- A service that was updated so often, and last given a spec when there were so
many nodes, runs what its spec says. -/
structure Settled (service : Service) (updates : Nat) (nodeCount : Option Nat)
    (pairs : List Placed) : Prop where
  version_eq : service.version.index = UInt64.ofNat (1 + updates)
  stands : ∃ count before block after, nodeCount = some count ∧
    Block service (suffixAfter updates) count pairs before block after

namespace Settled

variable {service : Service} {updates : Nat} {nodeCount : Option Nat} {pairs : List Placed}

theorem append (settled : Settled service updates nodeCount pairs) {placed : List Placed}
    (others : ∀ pair ∈ placed, pair.task.serviceId ≠ service.id) :
    Settled service updates nodeCount (pairs ++ placed) := by
  obtain ⟨version, count, before, block, after, counted, stands⟩ := settled
  exact ⟨version, count, before, block, after ++ placed, counted, stands.append others⟩

theorem apart (settled : Settled service updates nodeCount pairs) {serviceId : String}
    (different : service.id ≠ serviceId) :
    Settled service updates nodeCount (pairsApart serviceId pairs) := by
  obtain ⟨version, count, before, block, after, counted, stands⟩ := settled
  exact ⟨version, count, _, block, _, counted, stands.apart different⟩

end Settled

/-- A member all of whose services run what they are to run, where `updates` and
`nodeCount` tell of each service how often it was updated and how many nodes there
were when it was last given a spec. -/
structure Member.Tended (member : Member) (updates : String → Nat)
    (nodeCount : String → Option Nat) (pairs : List Placed) : Prop where
  whole : member.Whole pairs
  not_updated : ∀ id, ¬ member.supply.Used id → updates id = 0
  settled : ∀ service ∈ member.services,
    Settled service (updates service.id) (nodeCount service.id) pairs

namespace Member.Tended

variable {member : Member} {updates : String → Nat} {nodeCount : String → Option Nat}
  {pairs : List Placed}

theorem start (settings : Settings) (machine : Machine) (observer : Observer) {supply : Supply}
    (distinct : supply.Distinct) (nodeCount : String → Option Nat) :
    (Member.start settings machine observer supply).Tended (fun _ => 0) nodeCount [] where
  whole := .start settings machine observer distinct
  not_updated _ _ := rfl
  settled _ none := absurd none List.not_mem_nil

theorem sameServices (tended : member.Tended updates nodeCount pairs) {after : Member}
    (same : member.SameServices after) : after.Tended updates nodeCount pairs where
  whole := tended.whole.sameServices same
  not_updated id fresh := by
    refine tended.not_updated id fun used => fresh ?_
    obtain ⟨count, drawn⟩ := same.supply
    exact drawn ▸ used.ahead count
  settled := same.services ▸ tended.settled

/-- A new service is settled by being created. -/
theorem afterCreating (tended : member.Tended updates nodeCount pairs) {spec : ServiceSpec}
    {named : Nat} {service : Service} {placed : List Placed} {turn : RoundRobin}
    (created : member.Created spec named service placed turn) :
    (member.afterCreating named service placed turn).Tended updates
      (Function.update nodeCount service.id (some member.nodes.length)) (pairs ++ placed) := by
  have drawn : service.id = (member.supply.ahead named).next.id := by
    rw [created.service_eq]
    rfl
  have unused : ¬ member.supply.Used service.id := by
    rw [drawn]
    exact Supply.not_used_next_ahead tended.whole.distinct named
  have different : ∀ other ∈ member.services, other.id ≠ service.id := by
    intro other present same
    exact unused (same ▸ tended.whole.sound.services_used other present)
  have supplied : (member.afterCreating named service placed turn).supply =
      member.supply.ahead (named + 1 + 2 * placed.length) := supply_register _ placed
  refine ⟨tended.whole.afterCreating created, ?_, ?_⟩
  · intro id fresh
    refine tended.not_updated id fun used => fresh ?_
    rw [supplied]
    exact used.ahead _
  · intro other present
    rcases List.mem_append.mp present with old | new
    · rw [Function.update_of_ne (different other old)]
      refine (tended.settled other old).append fun pair inside => ?_
      rw [(created.all_placed.task_links inside).1]
      exact (different other old).symm
    · rw [List.mem_singleton.mp new, Function.update_self]
      have noTasks : ∀ pair ∈ pairs, pair.task.serviceId ≠ service.id := by
        intro pair inside same
        obtain ⟨owner, registered, sameId⟩ :=
          List.mem_map.mp (tended.whole.sound.owned pair inside)
        exact different owner registered (sameId.trans same)
      have updated := tended.not_updated service.id unused
      refine ⟨?_, member.nodes.length, pairs, placed, [], rfl, ?_⟩
      · rw [updated, created.service_eq]
        rfl
      · rw [updated]
        exact .placed noTasks created.wanted created.all_placed

/-- An updated service is settled again. -/
theorem afterUpdating (tended : member.Tended updates nodeCount pairs) {asked : String}
    {spec : ServiceSpec} {place : Fin member.services.length} {service : Service}
    {placed : List Placed} {turn : RoundRobin}
    (updated : member.Updated asked spec place service placed turn) :
    (member.afterUpdating place service placed turn).Tended
      (Function.update updates service.id (updates service.id + 1))
      (Function.update nodeCount service.id (some member.nodes.length))
      (pairsApart service.id pairs ++ placed) := by
  have sameId : service.id = (member.services.get place).id := by
    rw [updated.service_eq]
    rfl
  have registered : member.services.get place ∈ member.services := List.get_mem _ _
  have supplied : (member.afterUpdating place service placed turn).supply =
      member.supply.ahead (1 + 2 * placed.length) := supply_register _ placed
  refine ⟨tended.whole.afterUpdating updated, ?_, ?_⟩
  · intro id fresh
    have unused : ¬ member.supply.Used id := by
      intro used
      rw [supplied] at fresh
      exact fresh (used.ahead _)
    have different : id ≠ service.id := by
      rintro rfl
      exact unused (sameId ▸ tended.whole.sound.services_used _ registered)
    rw [Function.update_of_ne different]
    exact tended.not_updated id unused
  · intro other present
    have noTasks : ∀ pair ∈ pairsApart service.id pairs, pair.task.serviceId ≠ service.id := by
      intro pair inside
      simpa using (List.mem_filter.mp inside).2
    by_cases same : other.id = service.id
    · -- Identifiers are not shared, so only the service itself has its identifier.
      have nodup : ((member.services.set place service).map Service.id).Nodup := by
        rw [Whole.map_id_set sameId]
        exact tended.whole.sound.services_nodup
      obtain rfl : other = service :=
        List.inj_on_of_nodup_map nodup present (List.mem_set place.isLt service) same
      rw [Function.update_self, Function.update_self]
      obtain ⟨version, _⟩ := tended.settled _ registered
      refine ⟨?_, member.nodes.length, pairsApart other.id pairs, placed, [], rfl, ?_⟩
      · rw [sameId, updated.service_eq, ← Nat.add_assoc, UInt64.ofNat_add, ← version]
        rfl
      · rw [suffixAfter, if_neg (Nat.succ_ne_zero _)]
        exact .placed noTasks updated.wanted updated.all_placed
    · have old : other ∈ member.services :=
        (List.mem_or_eq_of_mem_set present).resolve_right fun equal =>
          same (congrArg Service.id equal)
      rw [Function.update_of_ne same, Function.update_of_ne same]
      refine ((tended.settled other old).apart same).append fun pair inside => ?_
      rw [(updated.all_placed.task_links inside).1]
      exact Ne.symm same

/-- Deleting a service leaves the others settled. -/
theorem afterDeleting (tended : member.Tended updates nodeCount pairs)
    (place : Fin member.services.length) :
    (member.afterDeleting place).Tended updates nodeCount
      (pairsApart (member.services.get place).id pairs) where
  whole := tended.whole.afterDeleting place
  not_updated := tended.not_updated
  settled other present := by
    have remains : other ∈ member.services.eraseIdx place :=
      (perm_fillGap member.services place.isLt).mem_iff.mp present
    obtain ⟨position, inside, apart, rfl⟩ := List.mem_eraseIdx_iff_getElem.mp remains
    refine (tended.settled _ (List.getElem_mem inside)).apart fun same => apart ?_
    have nodup := tended.whole.sound.services_nodup
    have equal := List.inj_on_of_nodup_map nodup (List.getElem_mem inside)
      (List.get_mem member.services place) same
    exact (List.Nodup.of_map Service.id nodup).getElem_inj_iff.mp equal

end Member.Tended

/-! ## Runs -/

namespace World

variable {n : Nat} (world : World n)

/-- A member is tended as the history of the run tells. -/
def TendedAfter (index : Fin n) (requests : List (Fin n × Command)) (member : Member) : Prop :=
  ∃ pairs, member.Tended (fun id => world.updates requests index id)
    (fun id => world.nodesWhenSettled requests index id) pairs

variable {world} {index : Fin n}

/-- A request that gives no service of the member its spec adds nothing that counts to
the history. -/
theorem TendedAfter.ignored {requests : List (Fin n × Command)} {request : Fin n × Command}
    {member : Member} (ignored : ∀ id,
      ¬ (Event.mk (world.after requests) request.1 request.2).settles index id ∧
        ¬ (Event.mk (world.after requests) request.1 request.2).revises index id)
    (tended : world.TendedAfter index requests member) :
    world.TendedAfter index (requests ++ [request]) member := by
  have sameUpdates : (fun id => world.updates (requests ++ [request]) index id) =
      fun id => world.updates requests index id := by
    funext id
    rw [updates_append, if_neg (ignored id).2, Nat.add_zero]
  have sameNodes : (fun id => world.nodesWhenSettled (requests ++ [request]) index id) =
      fun id => world.nodesWhenSettled requests index id := by
    funext id
    rw [nodesWhenSettled_append, if_neg (ignored id).1]
  rw [TendedAfter, sameUpdates, sameNodes]
  exact tended

section Counted

variable (world) (requests : List (Fin n × Command)) {command : Command} {service : Service}

theorem nodesWhenSettled_settled
    (settled : command.settled? (Event.mk (world.after requests) index command).outcome =
      some service) :
    (fun id => world.nodesWhenSettled (requests ++ [(index, command)]) index id) =
      Function.update (fun id => world.nodesWhenSettled requests index id) service.id
        (some ((world.after requests).member index).nodes.length) := by
  funext id
  rw [nodesWhenSettled_append, Event.settles, settled, Function.update_apply]
  by_cases same : id = service.id
  · simp [same]
  · simp [same, Ne.symm same]

theorem updates_unrevised
    (unrevised : command.revised? (Event.mk (world.after requests) index command).outcome = none) :
    (fun id => world.updates (requests ++ [(index, command)]) index id) =
      fun id => world.updates requests index id := by
  funext id
  rw [updates_append, Event.revises, unrevised]
  simp

theorem updates_revised
    (revised : command.revised? (Event.mk (world.after requests) index command).outcome =
      some service) :
    (fun id => world.updates (requests ++ [(index, command)]) index id) =
      Function.update (fun id => world.updates requests index id) service.id
        (world.updates requests index service.id + 1) := by
  funext id
  rw [updates_append, Event.revises, revised, Function.update_apply]
  by_cases same : id = service.id
  · simp [same]
  · simp [same, Ne.symm same]

end Counted

/-- What a step does to the services of a member, it keeps the member tended. -/
theorem TendedAfter.step {requests : List (Fin n × Command)} {command : Command} {after : Member}
    (step : ServiceStep ((world.after requests).member index) command
      ((world.after requests).step (perform index command)).1 after)
    (tended : world.TendedAfter index requests ((world.after requests).member index)) :
    world.TendedAfter index (requests ++ [(index, command)]) after := by
  obtain ⟨pairs, tended⟩ := tended
  have uncounted : command.settled? (Event.mk (world.after requests) index command).outcome = none →
      ∀ id, ¬ (Event.mk (world.after requests) index command).settles index id ∧
        ¬ (Event.mk (world.after requests) index command).revises index id := by
    intro unsettled id
    constructor
    · simp [Event.settles, unsettled]
    · simp [Event.revises, Command.revised?_eq_none unsettled]
  generalize ended : ((world.after requests).step (perform index command)).1 = outcome at step
  cases step with
  | kept same unsettled =>
    refine TendedAfter.ignored (uncounted ?_) ⟨pairs, tended.sameServices same⟩
    rw [← ended] at unsettled
    exact unsettled
  | @created spec named service placed turn created =>
    have settled := nodesWhenSettled_settled world requests (congrArg (Command.settled? _) ended)
    have unrevised := updates_unrevised world requests (congrArg (Command.revised? _) ended)
    rw [TendedAfter, settled, unrevised]
    exact ⟨_, tended.afterCreating created⟩
  | @updated asked spec place service placed turn updated =>
    have settled := nodesWhenSettled_settled world requests (congrArg (Command.settled? _) ended)
    have revised := updates_revised world requests (congrArg (Command.revised? _) ended)
    rw [TendedAfter, settled, revised]
    exact ⟨_, tended.afterUpdating updated⟩
  | deleted => exact TendedAfter.ignored (uncounted rfl) ⟨_, tended.afterDeleting _⟩

/-- In every run a member that was just started is tended. -/
theorem tended_after {settings : Settings} {machine : Machine} {observer : Observer}
    {supply : Supply} (started : world.member index = .start settings machine observer supply)
    (distinct : supply.Distinct) (requests : List (Fin n × Command)) :
    world.TendedAfter index requests ((world.after requests).member index) := by
  refine after_induction ?_ ?_ ?_ requests
  · rw [started]
    exact ⟨[], .start settings machine observer distinct _⟩
  · rintro requests request after elsewhere same ⟨pairs, tended⟩
    refine TendedAfter.ignored (fun id => ?_) ⟨pairs, tended.sameServices same⟩
    constructor <;> simp [Event.settles, Event.revises, elsewhere]
  · intro requests command after step tended
    exact tended.step step

end World

/-! ## The task sets -/

/-- The instance is the one for the task of a service with an index, as the spec of
the service is now. -/
structure ProcessInstance.Runs (process : ProcessInstance) (service : Service) (index : Nat) :
    Prop where
  name_eq : process.name = service.spec.name ++ "-" ++ Decimal.text index ++
    if service.version.index = 1 then "" else "-updated"
  image_eq : process.image = service.spec.taskTemplate.containerSpec.elim "" ContainerSpec.image
  entrypoint_eq : process.config.entrypoint =
    service.spec.taskTemplate.containerSpec.elim [] ContainerSpec.command
  command_eq : process.config.command =
    service.spec.taskTemplate.containerSpec.elim [] ContainerSpec.args
  env_eq : process.config.env = service.spec.taskTemplate.containerSpec.elim [] ContainerSpec.env

/-- The task is the one of a service with an index, as the spec of the service is
now, and so is its instance at a member. -/
structure Member.Runs (member : Member) (service : Service) (index : Nat) (task : Task) : Prop where
  serviceId_eq : task.serviceId = service.id
  slot_eq : task.slot.map UInt64.toNat = if service.spec.isGlobal then none else some (index + 1)
  spec_eq : task.spec = service.spec.taskTemplate
  state_eq : task.status.state = .ready
  desiredState_eq : task.desiredState = .ready
  process : ∃ process, member.instances.ofId? task.containerId = some process ∧
    process.Runs service index

/-- The instance behind a task is found by its identifier. -/
theorem Member.Paired.ofId?_eq {member : Member} {pairs : List Placed}
    (paired : member.Paired pairs) (nodup : (pairs.map fun pair => pair.process.id).Nodup)
    {pair : Placed} (present : pair ∈ pairs) :
    member.instances.ofId? pair.task.containerId = some pair.process := by
  have registered : pair.process ∈ member.instances.toList :=
    paired.instances_eq ▸ List.mem_map_of_mem present
  have answers : (pair.process.id == pair.task.containerId) = true := by
    rw [paired.linked pair present, beq_self_eq_true]
  rcases found : member.instances.ofId? pair.task.containerId with _ | process
  · exact absurd answers (List.find?_eq_none.mp found pair.process registered)
  · have distinct : (member.instances.toList.map ProcessInstance.id).Nodup := by
      rw [paired.instances_eq, List.map_map]
      exact nodup
    have named : process.id = pair.process.id := by
      rw [← paired.linked pair present]
      exact beq_iff_eq.mp (List.find?_some
        (p := fun process : ProcessInstance => process.id == pair.task.containerId) found)
    rw [List.inj_on_of_nodup_map distinct (List.mem_of_find?_eq_some found) registered named]

/-- How many tasks a service wants. -/
theorem ServiceSpec.desiredTasks_eq_ok {spec : ServiceSpec} {nodeCount count : Nat}
    (wanted : spec.desiredTasks nodeCount = .ok count) :
    count = (if spec.isGlobal then nodeCount else spec.replicas) ∧
      (spec.isGlobal = false → spec.replicas ≤ maxReplicas) := by
  simp only [desiredTasks] at wanted
  split at wanted
  next isGlobal =>
    obtain rfl := Except.ok.inj wanted
    simp [isGlobal]
  next notGlobal =>
    split at wanted
    next => exact absurd wanted (by simp)
    next few =>
      obtain rfl := Except.ok.inj wanted
      simp [notGlobal, Nat.le_of_not_lt few]

/-- The suffix is seen from the version. -/
theorem suffixAfter_eq {service : Service} {updates : Nat}
    (version_eq : service.version.index.toNat = 1 + updates) :
    suffixAfter updates = if service.version.index = 1 then "" else "-updated" := by
  have first : service.version.index = 1 ↔ updates = 0 := by
    rw [← UInt64.toNat_inj, version_eq]
    change 1 + updates = 1 ↔ updates = 0
    omega
  by_cases never : updates = 0
  · rw [suffixAfter, if_pos never, if_pos (first.mpr never)]
  · rw [suffixAfter, if_neg never, if_neg fun one => never (first.mp one)]
    rfl

/-- What fits an index runs what the spec of the service says, if the suffix is that
of its version. -/
theorem Placed.Fits.runs {member : Member} {pair : Placed} {service : Service} {suffix : String}
    {index : Nat} (fits : pair.Fits service suffix index)
    (suffix_eq : suffix = if service.version.index = 1 then "" else "-updated")
    (small : service.spec.isGlobal = false → index < ServiceSpec.maxReplicas)
    (found : member.instances.ofId? pair.task.containerId = some pair.process) :
    member.Runs service index pair.task := by
  obtain ⟨node, supply, rfl⟩ := fits
  refine ⟨rfl, ?_, rfl, rfl, rfl, _, found, ?_, ?_, ?_, ?_, ?_⟩
  · by_cases isGlobal : service.spec.isGlobal
    · simp [placeOn, Task.schedule, isGlobal]
    · have bound := small (by simpa using isGlobal)
      simp only [placeOn, Task.schedule, isGlobal, Bool.false_eq_true, ↓reduceIte, Option.map_some]
      rw [UInt64.toNat_ofNat_of_lt' (Nat.lt_of_le_of_lt bound (by decide))]
  · rw [← suffix_eq]
    rfl
  all_goals
    simp only [placeOn, ProcessInstance.forService]
    cases service.spec.taskTemplate.containerSpec <;> rfl

/-- **Each registered service runs exactly the tasks its spec asks for.**  Its version
counts its successful updates; its tasks are one block, as long as the spec asks
for on the nodes there were when the spec was set; and each task of the block, with
its instance, is the one that the spec asks for at its index. -/
theorem services_run_their_specs {n : Nat} (world : World n) (index : Fin n) (settings : Settings)
    (machine : Machine) (observer : Observer) (supply : Supply)
    (started : world.member index = .start settings machine observer supply)
    (distinct : supply.Distinct) (requests : List (Fin n × Command))
    (few : requests.countP (fun request => request.1 == index) < 2 ^ 64 - 1) :
    let member := (world.after requests).member index
    ∀ service ∈ member.services,
      service.version.index.toNat = 1 + world.updates requests index service.id ∧
      ∃ nodeCount before block after,
        world.nodesWhenSettled requests index service.id = some nodeCount ∧
        member.tasks = before ++ block ++ after ∧
        (∀ task ∈ before ++ after, task.serviceId ≠ service.id) ∧
        block.length = (if service.spec.isGlobal then nodeCount else service.spec.replicas) ∧
        (service.spec.isGlobal = false → service.spec.replicas ≤ 10000) ∧
        ∀ position task, block[position]? = some task → member.Runs service position task := by
  intro member service registered
  obtain ⟨pairs, tended⟩ := World.tended_after started distinct requests
  obtain ⟨version, count, before, block, after, counted, stands⟩ :=
    tended.settled service registered
  have bound := world.updates_le requests index service.id
  have version_eq : service.version.index.toNat = 1 + world.updates requests index service.id := by
    rw [version]
    refine UInt64.toNat_ofNat_of_lt' ?_
    change _ < 2 ^ 64
    omega
  obtain ⟨length_eq, notTooMany⟩ := ServiceSpec.desiredTasks_eq_ok stands.wanted
  refine ⟨version_eq, count, before.map Placed.task, block.map Placed.task, after.map Placed.task,
    counted, ?_, ?_, ?_, notTooMany, ?_⟩
  · rw [tended.whole.paired.tasks_eq, stands.pairs_eq, List.map_append, List.map_append]
  · intro task present
    rw [← List.map_append] at present
    obtain ⟨pair, inside, rfl⟩ := List.mem_map.mp present
    exact stands.others pair inside
  · rw [List.length_map, length_eq]
  · intro position task found
    rw [List.getElem?_map] at found
    obtain ⟨pair, there, rfl⟩ := Option.map_eq_some_iff.mp found
    have present : pair ∈ pairs := by
      rw [stands.pairs_eq]
      exact List.mem_append_left _ (List.mem_append_right _ (List.mem_of_getElem? there))
    refine (stands.fits position pair there).runs ?_ ?_
      (tended.whole.paired.ofId?_eq tended.whole.sound.processes_nodup present)
    · exact suffixAfter_eq version_eq
    · intro replicated
      have inside := (List.getElem?_eq_some_iff.mp there).1
      rw [length_eq, replicated] at inside
      exact Nat.lt_of_lt_of_le inside (notTooMany replicated)

theorem services_run_their_specs_twoServices :
    let member := (World.twoMembers.after World.twoServices).member 0
    member.services.map (fun service => service.version.index) = [2, 1] ∧
      ∀ service ∈ member.services,
        service.version.index.toNat = 1 + World.twoMembers.updates World.twoServices 0 service.id ∧
        ∃ nodeCount before block after,
          World.twoMembers.nodesWhenSettled World.twoServices 0 service.id = some nodeCount ∧
          member.tasks = before ++ block ++ after ∧
          (∀ task ∈ before ++ after, task.serviceId ≠ service.id) ∧
          block.length = (if service.spec.isGlobal then nodeCount else service.spec.replicas) ∧
          (service.spec.isGlobal = false → service.spec.replicas ≤ 10000) ∧
          ∀ position task, block[position]? = some task → member.Runs service position task :=
  ⟨by decide +kernel,
    services_run_their_specs World.twoMembers 0 {} default .listening (.tally 'a')
      (World.member_start _ _ _ _ _ 0) (Supply.distinct_tally 'a') World.twoServices
      (by decide +kernel)⟩

end SwarmManager
