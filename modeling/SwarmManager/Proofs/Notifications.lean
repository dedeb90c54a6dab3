import SwarmManager.Proofs.Designation
import SwarmManager.Proofs.TaskSets
import SwarmManager.Proofs.Unwatched

/-!
# What observers are told

A member that has an observer tells it of every instance it starts.  A request that gives a
service its spec starts one instance for each task it registers and sends them in the order of
the tasks; every other request sends nothing (`Event.Tells`).

Over a run the instances are sent in batches, one for each time a service got a spec.  A batch
is out of date once the service is updated or deleted, and the registry of instances is what
the batches that are not (`remaining`) hold.  The main statement is
`observers_see_all_once`.
-/

namespace SwarmManager

set_option autoImplicit false

variable {n : Nat}

/-! ## What a request sends -/

namespace Event

/-- A member after the request. -/
def next (event : Event n) (index : Fin n) : Member :=
  (event.world.step (World.perform event.index event.command)).2.member index

/-- The instances of which the request told the observer of a member. -/
def sent (event : Event n) (index : Fin n) : List ProcessInstance :=
  (event.next index).observed.drop (event.world.member index).observed.length

/-- The service of a member that the request gave its spec. -/
def settled? (event : Event n) (index : Fin n) : Option Service :=
  if event.index = index then event.command.settled? event.outcome else none

/-- The service of a member whose instances the request removed, by an update or a deletion. -/
def retired? (event : Event n) (index : Fin n) : Option Service :=
  if event.index = index then
    (event.command.revised? event.outcome).or
      ((event.command.removed? event.outcome).bind fun asked =>
        ((event.world.member index).inspectService asked).toOption)
  else none

/-- What a request can do to the services of a member, by the service it gave its spec and the
one whose instances it removed. -/
inductive Course (event : Event n) (index : Fin n) :
    Option Service → Option Service → Member → Prop
  | kept {after : Member} (same : (event.world.member index).SameServices after) :
      Course event index none none after
  | created {spec : ServiceSpec} {named : Nat} {service : Service} {placed : List Placed}
      {turn : RoundRobin}
      (created : (event.world.member index).Created spec named service placed turn) :
      Course event index (some service) none
        ((event.world.member index).afterCreating named service placed turn)
  | updated {asked : String} {spec : ServiceSpec}
      {place : Fin (event.world.member index).services.length} {service : Service}
      {placed : List Placed} {turn : RoundRobin}
      (updated : (event.world.member index).Updated asked spec place service placed turn) :
      Course event index (some service) (some service)
        ((event.world.member index).afterUpdating place service placed turn)
  | deleted (place : Fin (event.world.member index).services.length) :
      Course event index none (some ((event.world.member index).services.get place))
        ((event.world.member index).afterDeleting place)

/-- A request takes one of these courses. -/
theorem course (event : Event n) (index : Fin n) :
    event.Course index (event.settled? index) (event.retired? index) (event.next index) := by
  by_cases here : event.index = index
  · have step := World.serviceStep_perform event.world event.index event.command
    change ServiceStep _ _ event.outcome (event.next event.index) at step
    rw [here] at step
    rw [settled?, retired?, if_pos here, if_pos here]
    generalize event.next index = after at step
    generalize event.command = command at step
    generalize event.outcome = outcome at step
    cases step with
    | kept same unsettled unremoved =>
      rw [unsettled, Command.revised?_eq_none unsettled, unremoved]
      exact .kept same
    | created created => exact .created created
    | updated updated => exact .updated updated
    | @deleted asked place inSwarm located =>
      obtain ⟨swarm, inside⟩ := Option.isSome_iff_exists.mp inSwarm
      have inspected : (event.world.member index).inspectService asked =
          .ok ((event.world.member index).services.get place) := by
        simp only [Member.inspectService, Member.inspectSwarm, inside, located]
        rfl
      simp only [Command.settled?, Command.revised?, Command.removed?, Option.none_or,
        Option.bind_some, inspected]
      exact .deleted place
  · rw [settled?, retired?, if_neg here, if_neg here]
    exact .kept (World.sameServices_perform event.world (Ne.symm here) event.command)

/-- Whether the request updated or deleted a service of a member. -/
def retires (event : Event n) (index : Fin n) (serviceId : String) : Bool :=
  (event.retired? index).any fun service => service.id == serviceId

/-- The observer of a member was told what the request started: if it gave a service its
spec, one instance for each task it registered, as it is registered and in the order of the
tasks, and otherwise nothing. -/
structure Tells (event : Event n) (index : Fin n) : Prop where
  observed_eq : (event.next index).observed =
    (event.world.member index).observed ++ event.sent index
  settled : ∀ service, event.settled? index = some service → ∃ registered : List Task,
    (event.next index).tasks = (event.world.member index).tasksApart service.id ++ registered ∧
    (∀ task ∈ registered, task.serviceId = service.id) ∧
    (registered.map fun task => (event.next index).instances.ofId? task.containerId) =
      (event.sent index).map some
  unsettled : event.settled? index = none → event.sent index = []

end Event

/-! ## What remains of it -/

/-- Instances that were started together, for one service. -/
structure Batch where
  serviceId : String
  processes : List ProcessInstance

/-- What the request sent to the observer of a member, if it gave a service its spec. -/
def Event.batch? (event : Event n) (index : Fin n) : Option Batch :=
  (event.settled? index).map fun service => ⟨service.id, event.sent index⟩

/-- Of the batches sent to the observer of a member those whose service was not updated or
deleted later. -/
def remaining (index : Fin n) : List (Event n) → List Batch
  | [] => []
  | event :: later =>
      ((event.batch? index).toList.filter fun batch =>
        !later.any fun other => other.retires index batch.serviceId) ++ remaining index later

/-- One more request leaves the batches of the services it does not update or delete, and adds
its own. -/
theorem remaining_append (index : Fin n) (events : List (Event n)) (event : Event n) :
    remaining index (events ++ [event]) =
      ((remaining index events).filter fun batch => !event.retires index batch.serviceId) ++
        (event.batch? index).toList := by
  induction events with
  | nil => simp [remaining]
  | cons first later ih =>
    simp only [List.cons_append, remaining, ih, List.filter_append, List.filter_filter,
      List.append_assoc, List.any_append, List.any_cons, List.any_nil, Bool.or_false, Bool.not_or]
    congr 2
    funext batch
    exact Bool.and_comm _ _

/-- What remains was sent, in this order. -/
theorem remaining_sublist (index : Fin n) (events : List (Event n)) :
    ((remaining index events).flatMap Batch.processes).Sublist
      (events.flatMap fun event => event.sent index) := by
  induction events with
  | nil => exact List.Sublist.slnil
  | cons event later ih =>
    rw [remaining, List.flatMap_append, List.flatMap_cons]
    refine List.Sublist.append ?_ ih
    cases settled : event.settled? index with
    | none => simp [Event.batch?, settled]
    | some service =>
      simp only [Event.batch?, settled, Option.map_some, Option.toList_some, List.filter_singleton,
        Bool.cond_eq_ite]
      split
      · simp
      · exact List.nil_sublist _

/-! ## Steps -/

section Register

variable (member : Member) (placed : List Placed) (listening : member.observer = .listening)
include listening

/-- A listening observer is told of what is registered. -/
theorem Member.observed_register :
    (member.register placed).observed = member.observed ++ placed.map Placed.process := by
  simp [register, tell, listening]

theorem Member.observer_register : (member.register placed).observer = .listening := by
  simp [register, tell, listening]

end Register

/-- Pairs that were placed together for one service. -/
structure Group where
  serviceId : String
  pairs : List Placed

/-- The instances of the pairs. -/
def Group.batch (group : Group) : Batch := ⟨group.serviceId, group.pairs.map Placed.process⟩

/-- Pairs come in groups, each of one service. -/
structure Grouped (pairs : List Placed) (groups : List Group) : Prop where
  pairs_eq : pairs = groups.flatMap Group.pairs
  owned : ∀ group ∈ groups, ∀ pair ∈ group.pairs, pair.task.serviceId = group.serviceId

namespace Grouped

variable {pairs : List Placed} {groups : List Group}

/-- To take out the pairs of a service is to take out its groups. -/
theorem apart (grouped : Grouped pairs groups) (serviceId : String) :
    Grouped (pairsApart serviceId pairs)
      (groups.filter fun group => group.serviceId != serviceId) := by
  refine ⟨?_, fun group present => grouped.owned group (List.mem_of_mem_filter present)⟩
  obtain ⟨rfl, owned⟩ := grouped
  induction groups with
  | nil => rfl
  | cons group rest ih =>
    have later := ih fun other present => owned other (List.mem_cons_of_mem _ present)
    have here : pairsApart serviceId group.pairs =
        if group.serviceId != serviceId then group.pairs else [] := by
      split
      next different =>
        exact List.filter_eq_self.mpr fun pair present => by
          rw [owned group List.mem_cons_self pair present]
          exact different
      next same =>
        exact List.filter_eq_nil_iff.mpr fun pair present => by
          rw [owned group List.mem_cons_self pair present]
          exact same
    rw [List.flatMap_cons, pairsApart, List.filter_append]
    change pairsApart serviceId group.pairs ++ pairsApart serviceId _ = _
    rw [here, later, List.filter_cons]
    split
    · rw [List.flatMap_cons]
    · rw [List.nil_append]

/-- What is placed for one service is one more group. -/
theorem append (grouped : Grouped pairs groups) {serviceId : String} {placed : List Placed}
    (owned : ∀ pair ∈ placed, pair.task.serviceId = serviceId) :
    Grouped (pairs ++ placed) (groups ++ [⟨serviceId, placed⟩]) where
  pairs_eq := by
    rw [grouped.pairs_eq, List.flatMap_append, List.flatMap_singleton]
  owned group present := by
    rcases List.mem_append.mp present with old | new
    · exact grouped.owned group old
    · obtain rfl := List.mem_singleton.mp new
      exact owned

theorem instances_eq (grouped : Grouped pairs groups) :
    pairs.map Placed.process = (groups.map Group.batch).flatMap Batch.processes := by
  rw [grouped.pairs_eq, List.map_flatMap, List.flatMap_map]
  rfl

end Grouped

/-- A member with a listening observer, who was told of the events of a run: its instances are
those that remain, and no identifier was sent twice. -/
structure Member.Followed (member : Member) (index : Fin n) (events : List (Event n)) :
    Prop where
  listening : member.observer = .listening
  whole : ∃ pairs groups, member.Whole pairs ∧ Grouped pairs groups ∧
    remaining index events = groups.map Group.batch
  observed_eq : member.observed = events.flatMap fun event => event.sent index
  observed_used : ∀ process ∈ member.observed, member.supply.Used process.id
  observed_nodup : (member.observed.map ProcessInstance.id).Nodup

namespace Event

variable {event : Event n} {index : Fin n}

/-- What was told is what was sent. -/
theorem sent_eq {started : List ProcessInstance}
    (told : (event.next index).observed = (event.world.member index).observed ++ started) :
    event.sent index = started := by
  rw [sent, told, List.drop_left]

/-- A request that gives no service of the member a spec, and of which its observer was not
told, sends nothing. -/
theorem tells_of_silent (silent : (event.next index).observed = (event.world.member index).observed)
    (unsettled : event.settled? index = none) : event.Tells index := by
  have told : (event.next index).observed = (event.world.member index).observed ++ [] := by
    rw [silent, List.append_nil]
  have sent := sent_eq told
  refine ⟨sent ▸ told, ?_, fun _ => sent⟩
  intro service settled
  exact absurd (unsettled.symm.trans settled) (by simp)

section Started

variable {service : Service} {placed : List Placed} (settled : event.settled? index = some service)
  (told : (event.next index).observed =
    (event.world.member index).observed ++ placed.map Placed.process)
include settled told

/-- A request that gives a service its spec sends what it started. -/
theorem tells_of_started {pairs : List Placed}
    (tasks_eq : (event.next index).tasks =
      (event.world.member index).tasksApart service.id ++ placed.map Placed.task)
    (owned : ∀ pair ∈ placed, pair.task.serviceId = service.id)
    (whole : (event.next index).Whole (pairs ++ placed)) : event.Tells index := by
  have sent := sent_eq told
  refine ⟨sent ▸ told, ?_, fun none => absurd (none.symm.trans settled) (by simp)⟩
  intro other same
  obtain rfl : service = other := Option.some.inj (settled.symm.trans same)
  refine ⟨placed.map Placed.task, tasks_eq, ?_, ?_⟩
  · intro task registered
    obtain ⟨pair, present, rfl⟩ := List.mem_map.mp registered
    exact owned pair present
  · rw [sent, List.map_map, List.map_map]
    refine List.map_congr_left fun pair present => ?_
    exact whole.paired.ofId?_eq whole.sound.processes_nodup (List.mem_append_right _ present)

/-- The batch of a request is what it started. -/
theorem batch?_of_started : event.batch? index = some (Group.batch ⟨service.id, placed⟩) := by
  rw [batch?, settled, sent_eq told]
  rfl

end Started

/-- What remains, if the request updated or deleted a service, is without the groups of that
service. -/
theorem filter_remaining {events : List (Event n)} {groups : List Group} {service : Service}
    (retired : event.retired? index = some service)
    (remains : remaining index events = groups.map Group.batch) :
    ((remaining index events).filter fun batch => !event.retires index batch.serviceId) =
      (groups.filter fun group => group.serviceId != service.id).map Group.batch := by
  rw [remains, List.filter_map]
  refine congrArg (List.map Group.batch) (List.filter_congr fun group _ => ?_)
  simp only [Function.comp_apply, retires, retired, Option.any_some, Group.batch, bne]
  rw [Bool.beq_comm]

end Event

namespace Member.Followed

variable {event : Event n} {index : Fin n} {events : List (Event n)}
  (followed : (event.world.member index).Followed index events)
include followed

/-- Nothing happened to the services of the member. -/
theorem sameServices (same : (event.world.member index).SameServices (event.next index))
    (unsettled : event.settled? index = none) (unretired : event.retired? index = none) :
    (event.next index).Followed index (events ++ [event]) := by
  have told := Event.tells_of_silent same.observed unsettled
  obtain ⟨pairs, groups, whole, grouped, remains⟩ := followed.whole
  refine ⟨same.observer.trans followed.listening,
    ⟨pairs, groups, whole.sameServices same, grouped, ?_⟩, ?_, ?_, ?_⟩
  · rw [remaining_append, Event.batch?, unsettled, ← remains]
    simp [Event.retires, unretired]
  · rw [told.observed_eq, followed.observed_eq, List.flatMap_append, List.flatMap_singleton]
  · rw [same.observed]
    intro process listed
    obtain ⟨count, drawn⟩ := same.supply
    exact drawn ▸ (followed.observed_used process listed).ahead count
  · exact same.observed ▸ followed.observed_nodup

/-- Tasks were placed for a service, whose other tasks are gone. -/
theorem started {service : Service} {placed : List Placed} {nodes : List Node} {suffix : String}
    {turn turnAfter : RoundRobin} {drawn : Nat} {groups : List Group}
    (settled : event.settled? index = some service)
    (listening : (event.next index).observer = .listening)
    (told : (event.next index).observed =
      (event.world.member index).observed ++ placed.map Placed.process)
    (supplied : (event.next index).supply =
      (event.world.member index).supply.ahead (drawn + 2 * placed.length))
    (all : PlacedFrom nodes service suffix placed.length 0 turn
      ((event.world.member index).supply.ahead drawn) placed turnAfter)
    (whole : ∃ pairs, (event.next index).Whole (pairs ++ placed) ∧ Grouped pairs groups)
    (remains : ((remaining index events).filter fun batch =>
      !event.retires index batch.serviceId) = groups.map Group.batch) :
    (event.next index).Followed index (events ++ [event]) := by
  obtain ⟨before, _, wholeBefore, _⟩ := followed.whole
  obtain ⟨pairs, wholeAfter, grouped⟩ := whole
  have sent := Event.sent_eq told
  have owned : ∀ pair ∈ placed, pair.task.serviceId = service.id :=
    fun pair present => (all.task_links present).1
  refine ⟨listening, ⟨_, _, wholeAfter, grouped.append owned, ?_⟩, ?_, ?_, ?_⟩
  · rw [remaining_append, remains, Event.batch?_of_started settled told, List.map_append]
    rfl
  · rw [told, followed.observed_eq, List.flatMap_append, List.flatMap_singleton, sent]
  · intro process listed
    rw [told] at listed
    rw [supplied]
    rcases List.mem_append.mp listed with old | new
    · exact (followed.observed_used process old).ahead _
    · obtain ⟨pair, present, rfl⟩ := List.mem_map.mp new
      obtain ⟨_, offset, inside, same⟩ := all.draws present
      rw [same, Supply.ahead_ahead]
      exact Supply.used_next_ahead _ (by omega)
  · rw [told, List.map_append, List.nodup_append]
    refine ⟨followed.observed_nodup, ?_, ?_⟩
    · rw [List.map_map]
      exact all.nodup_processIds (wholeBefore.distinct.ahead drawn)
    · -- What was sent before has identifiers handed out before.
      rintro id old _ new rfl
      obtain ⟨process, listed, rfl⟩ := List.mem_map.mp old
      obtain ⟨other, fresh, same⟩ := List.mem_map.mp new
      obtain ⟨pair, present, rfl⟩ := List.mem_map.mp fresh
      obtain ⟨_, offset, _, draw⟩ := all.draws present
      have used := followed.observed_used process listed
      rw [← same, draw, Supply.ahead_ahead] at used
      exact Supply.not_used_next_ahead wholeBefore.distinct _ used

section Scheduled

variable {service : Service} {placed : List Placed} {turn : RoundRobin}

theorem created {spec : ServiceSpec} {named : Nat}
    (settled : event.settled? index = some service) (unretired : event.retired? index = none)
    (created : (event.world.member index).Created spec named service placed turn)
    (next_eq : event.next index =
      (event.world.member index).afterCreating named service placed turn) :
    (event.next index).Followed index (events ++ [event]) ∧ event.Tells index := by
  obtain ⟨pairs, groups, whole, grouped, remains⟩ := followed.whole
  have told : (event.next index).observed =
      (event.world.member index).observed ++ placed.map Placed.process := by
    rw [next_eq]
    refine observed_register _ placed ?_
    exact followed.listening
  have wholeAfter : (event.next index).Whole (pairs ++ placed) :=
    next_eq ▸ whole.afterCreating created
  constructor
  · refine followed.started settled ?_ told ?_ created.all_placed ⟨pairs, wholeAfter, grouped⟩ ?_
    · rw [next_eq]
      refine observer_register _ placed ?_
      exact followed.listening
    · rw [next_eq]
      exact supply_afterCreating _ _ _ _ _
    · rw [← remains]
      exact List.filter_eq_self.mpr fun batch _ => by simp [Event.retires, unretired]
  · refine Event.tells_of_started settled told ?_
      (fun pair present => (created.all_placed.task_links present).1) wholeAfter
    -- The service is new, so no task of the member was its own.
    have apart : (event.world.member index).tasksApart service.id =
        (event.world.member index).tasks := by
      refine List.filter_eq_self.mpr fun task registered => bne_iff_ne.mpr fun same => ?_
      rw [whole.paired.tasks_eq] at registered
      obtain ⟨pair, present, rfl⟩ := List.mem_map.mp registered
      obtain ⟨owner, listed, owns⟩ := List.mem_map.mp (whole.sound.owned pair present)
      have used := whole.sound.services_used owner listed
      rw [owns, same, created.service_eq] at used
      exact Supply.not_used_next_ahead whole.distinct named used
    rw [next_eq, apart]
    exact tasks_register _ placed

theorem updated {asked : String} {spec : ServiceSpec}
    {place : Fin (event.world.member index).services.length}
    (settled : event.settled? index = some service)
    (retired : event.retired? index = some service)
    (updated : (event.world.member index).Updated asked spec place service placed turn)
    (next_eq : event.next index =
      (event.world.member index).afterUpdating place service placed turn) :
    (event.next index).Followed index (events ++ [event]) ∧ event.Tells index := by
  obtain ⟨pairs, groups, whole, grouped, remains⟩ := followed.whole
  have told : (event.next index).observed =
      (event.world.member index).observed ++ placed.map Placed.process := by
    rw [next_eq]
    refine observed_register _ placed ?_
    exact followed.listening
  have wholeAfter : (event.next index).Whole (pairsApart service.id pairs ++ placed) :=
    next_eq ▸ whole.afterUpdating updated
  constructor
  · refine followed.started settled ?_ told ?_ updated.all_placed
      ⟨_, wholeAfter, grouped.apart service.id⟩ (Event.filter_remaining retired remains)
    · rw [next_eq]
      refine observer_register _ placed ?_
      exact followed.listening
    · rw [next_eq]
      exact supply_afterUpdating _ _ _ _ _
  · refine Event.tells_of_started settled told ?_
      (fun pair present => (updated.all_placed.task_links present).1) wholeAfter
    rw [next_eq]
    exact (tasks_register _ placed).trans (congrArg (· ++ _) (tasks_withoutTasksOf _ _))

theorem deleted {place : Fin (event.world.member index).services.length}
    (unsettled : event.settled? index = none)
    (retired : event.retired? index = some ((event.world.member index).services.get place))
    (next_eq : event.next index = (event.world.member index).afterDeleting place) :
    (event.next index).Followed index (events ++ [event]) ∧ event.Tells index := by
  obtain ⟨pairs, groups, whole, grouped, remains⟩ := followed.whole
  have observed : (event.next index).observed = (event.world.member index).observed :=
    next_eq ▸ rfl
  have tells := Event.tells_of_silent observed unsettled
  refine ⟨⟨?_, ⟨_, _, next_eq ▸ whole.afterDeleting place, grouped.apart _, ?_⟩, ?_, ?_, ?_⟩, tells⟩
  · rw [next_eq]
    exact followed.listening
  · rw [remaining_append, Event.filter_remaining retired remains, Event.batch?, unsettled]
    exact List.append_nil _
  · rw [tells.observed_eq, followed.observed_eq, List.flatMap_append, List.flatMap_singleton]
  · rw [observed, next_eq]
    exact followed.observed_used
  · exact observed ▸ followed.observed_nodup

end Scheduled

/-- Whatever the request does to the services of the member, its observer is told. -/
theorem step : (event.next index).Followed index (events ++ [event]) ∧ event.Tells index := by
  have course := event.course index
  generalize settled : event.settled? index = settled? at course
  generalize retired : event.retired? index = retired? at course
  generalize next_eq : event.next index = after at course
  rw [← next_eq]
  cases course with
  | kept same =>
    rw [← next_eq] at same
    exact ⟨followed.sameServices same settled retired, Event.tells_of_silent same.observed settled⟩
  | created created => exact followed.created settled retired created next_eq
  | updated updated => exact followed.updated settled retired updated next_eq
  | deleted place => exact followed.deleted settled retired next_eq

end Member.Followed

/-! ## Runs -/

/-- In every run of a member that was just started, with a listening observer, the observer is
told of all that the requests start. -/
theorem World.followed_after {world : World n} {index : Fin n} {settings : Settings}
    {machine : Machine} {supply : Supply}
    (started : world.member index = .start settings machine .listening supply)
    (distinct : supply.Distinct) (requests : List (Fin n × Command)) :
    ((world.after requests).member index).Followed index (world.history requests) ∧
      ∀ event ∈ world.history requests, event.Tells index := by
  induction requests using List.reverseRecOn with
  | nil =>
    refine ⟨?_, fun event none => absurd none List.not_mem_nil⟩
    change (world.member index).Followed index []
    rw [started]
    exact ⟨rfl, ⟨[], [], .start settings machine .listening distinct,
      ⟨rfl, fun _ none => absurd none List.not_mem_nil⟩, rfl⟩, rfl,
      fun _ none => absurd none List.not_mem_nil, List.nodup_nil⟩
  | append_singleton requests request ih =>
    obtain ⟨followed, tells⟩ := ih
    let event : Event n := ⟨world.after requests, request.1, request.2⟩
    have before : (event.world.member index).Followed index (world.history requests) := followed
    obtain ⟨followedNext, tellsLast⟩ := before.step
    rw [history_append, after_append]
    refine ⟨followedNext, fun event listed => ?_⟩
    rcases List.mem_append.mp listed with earlier | last
    · exact tells event earlier
    · exact List.mem_singleton.mp last ▸ tellsLast

/-- **An observer sees every instance once.**  In every run of a member that was just started
with a listening observer, and with draws that do not repeat, a request that gives a service
its spec sends the instances behind the tasks it registers, in their order, and every other
request sends nothing.  So no identifier is sent twice, and the instances of the member are
those sent and not yet replaced or removed, in the order in which they were sent.  Whoever
observes the members instead, every request ends in the same way and the run leads to the
same world but for what observers were told. -/
theorem observers_see_all_once (world : World n) (index : Fin n) (settings : Settings)
    (machine : Machine) (supply : Supply)
    (started : world.member index = .start settings machine .listening supply)
    (distinct : supply.Distinct) (requests : List (Fin n × Command)) :
    let member := (world.after requests).member index
    let events := world.history requests
    (∀ event ∈ events, event.Tells index) ∧
    member.observed = (events.flatMap fun event => event.sent index) ∧
    (member.observed.map ProcessInstance.id).Nodup ∧
    member.instances.toList = (remaining index events).flatMap Batch.processes ∧
    member.instances.toList.Sublist member.observed ∧
    ∀ observers : Fin n → Observer,
      (world.watchedBy observers).outcomes requests = world.outcomes requests ∧
      ((world.watchedBy observers).after requests).unwatched =
        (world.after requests).unwatched := by
  intro member events
  obtain ⟨followed, tells⟩ := World.followed_after started distinct requests
  obtain ⟨pairs, groups, whole, grouped, remains⟩ := followed.whole
  have instances_eq : member.instances.toList =
      (remaining index events).flatMap Batch.processes := by
    rw [whole.paired.instances_eq, grouped.instances_eq, remains]
  refine ⟨tells, followed.observed_eq, followed.observed_nodup, instances_eq, ?_,
    fun observers => World.run_watchedBy world observers requests⟩
  rw [instances_eq, followed.observed_eq]
  exact remaining_sublist index events

theorem observers_see_all_once_twoServices :
    let member := (World.twoMembers.after World.twoServices).member 0
    let events := World.twoMembers.history World.twoServices
    member.observed.map ProcessInstance.name = ["web-0", "log-0", "log-1", "site-0-updated"] ∧
    member.instances.toList.map ProcessInstance.name = ["log-0", "log-1", "site-0-updated"] ∧
    (∀ event ∈ events, event.Tells 0) ∧
    (member.observed.map ProcessInstance.id).Nodup ∧
    member.instances.toList = (remaining 0 events).flatMap Batch.processes ∧
    ((World.twoMembers.watchedBy fun _ => .gone).outcomes World.twoServices =
      World.twoMembers.outcomes World.twoServices) := by
  obtain ⟨tells, _, nodup, instances_eq, _, same⟩ :=
    observers_see_all_once World.twoMembers 0 {} default (.tally 'a')
      (World.member_start _ _ _ _ _ 0) (Supply.distinct_tally 'a') World.twoServices
  exact ⟨by decide +kernel, by decide +kernel, tells, nodup, instances_eq,
    (same fun _ => .gone).1⟩

end SwarmManager
