import SwarmManager.Proofs.Codecs
import SwarmManager.Proofs.Integrity
import SwarmManager.Proofs.Separation
import SwarmManager.Proofs.Start

/-!
# What list filters select

A filter with accepted values lets a service or a task pass if one of the values fits it, and
`ServiceFits` and `TaskFits` say how.  Listing keeps what passes, in the order of the registry.

The tasks are seen with the service that owns each.  Every task of a member that is reached by a
run has one (`World.tasksOwned_after`), whatever identifiers are drawn, so listing tasks never
fails.

The main statement is `filters_select_exactly`.
-/

namespace SwarmManager

set_option autoImplicit false

/-! ## Maps of values -/

namespace StringMap

/-- The values that a map lists under a category; none if it has no such category. -/
def listed (accepted : StringMap (List String)) (category : String) : List String :=
  (accepted.find? category).getD []

/-- The values of two maps together, category by category. -/
def concat (one other : StringMap (List String)) : StringMap (List String) :=
  other.entries.foldl (fun both entry => both.insert entry.1 (one.listed entry.1 ++ entry.2)) one

/-- Of entries with keys of their own that are put into a map, a key is bound to the value of its
entry. -/
theorem find?_foldl_insert {α β : Type} {entries : List (String × α)}
    (nodup : (entries.map Prod.fst).Nodup) (value : String → α → β) (map : StringMap β)
    (probe : String) :
    (entries.foldl (fun map entry => map.insert entry.1 (value entry.1 entry.2)) map).find? probe =
      match entries.lookup probe with
      | none => map.find? probe
      | some given => some (value probe given) := by
  induction entries generalizing map with
  | nil => rfl
  | cons entry rest ih =>
    obtain ⟨key, given⟩ := entry
    obtain ⟨apart, restNodup⟩ := List.nodup_cons.mp nodup
    rw [List.foldl_cons, ih restNodup, List.lookup_cons, find?_insert]
    by_cases here : probe = key
    · subst here
      -- The key does not come again, so what is inserted later leaves its value alone.
      have missing : rest.lookup probe = none := by
        refine List.lookup_eq_none_iff.mpr fun later present => bne_iff_ne.mpr fun same => apart ?_
        exact List.mem_map.mpr ⟨later, present, same.symm⟩
      rw [missing, if_pos rfl, beq_self_eq_true]
    · rw [if_neg here, beq_eq_false_iff_ne.mpr here]

/-- A category has the values of both maps, and is missing if it is missing in both. -/
theorem find?_concat (one other : StringMap (List String)) (category : String) :
    (one.concat other).find? category =
      match one.find? category, other.find? category with
      | none, none => none
      | _, _ => some (one.listed category ++ other.listed category) := by
  have keys : (other.entries.map Prod.fst).Nodup := by
    refine List.pairwise_map.mpr (other.ascending.imp fun below same => ?_)
    exact String.lt_irrefl _ (same ▸ below)
  rw [concat, find?_foldl_insert keys fun key values => one.listed key ++ values, listed, listed,
    find?, find?]
  cases one.entries.lookup category <;> cases other.entries.lookup category <;> simp

theorem listed_concat (one other : StringMap (List String)) (category : String) :
    (one.concat other).listed category = one.listed category ++ other.listed category := by
  rw [listed, find?_concat, listed, listed]
  cases one.find? category <;> cases other.find? category <;> rfl

end StringMap

/-! ## What fits -/

/-- Whether a label value fits labels: it is the key of one, or the key and the value of one with
an equals sign between them, the first there is. -/
inductive LabelFits (labels : StringMap String) : String → Prop
  | key {key value : String} (unsigned : '=' ∉ key.toList) (held : labels.find? key = some value) :
      LabelFits labels key
  | value {key value : String} (unsigned : '=' ∉ key.toList)
      (held : labels.find? key = some value) : LabelFits labels (key ++ "=" ++ value)

/-- Whether one of the accepted values fits a service. -/
inductive ServiceFits (accepted : StringMap (List String)) (service : Service) : Prop
  | id (listed : service.id ∈ accepted.listed "id")
  | name (listed : service.spec.name ∈ accepted.listed "name")

/-- Whether one of the accepted values fits a task, which a service owns. -/
inductive TaskFits (accepted : StringMap (List String)) (task : Task) (owner : Service) : Prop
  | id (listed : task.id ∈ accepted.listed "id")
  | service (listed : owner.id ∈ accepted.listed "service")
  | serviceName (listed : owner.spec.name ∈ accepted.listed "service")
  | node (listed : task.nodeId ∈ accepted.listed "node")
  | desiredState (listed : task.desiredState.name ∈ accepted.listed "desired-state")
  | label {wanted : String} (listed : wanted ∈ accepted.listed "label")
      (fits : LabelFits owner.spec.labels wanted)

/-- The categories that services are selected by. -/
def Service.categories : List String := ["id", "name"]

/-- The categories that tasks are selected by. -/
def Task.categories : List String := ["id", "service", "node", "desired-state", "label"]

section Fits

variable {one other : StringMap (List String)} {service owner : Service} {task : Task}

/-- What fits one of some values still fits one of more. -/
theorem ServiceFits.mono
    (more : ∀ category ∈ Service.categories, one.listed category ⊆ other.listed category)
    (fits : ServiceFits one service) : ServiceFits other service := by
  simp only [Service.categories, List.forall_mem_cons] at more
  obtain ⟨ids, names, _⟩ := more
  cases fits with
  | id listed => exact .id (ids listed)
  | name listed => exact .name (names listed)

/-- Only the categories of services decide which of them fit. -/
theorem serviceFits_congr
    (agree : ∀ category ∈ Service.categories, one.listed category = other.listed category) :
    ServiceFits one service ↔ ServiceFits other service :=
  ⟨.mono fun category listed => agree category listed ▸ List.Subset.refl _,
    .mono fun category listed => agree category listed ▸ List.Subset.refl _⟩

theorem TaskFits.mono
    (more : ∀ category ∈ Task.categories, one.listed category ⊆ other.listed category)
    (fits : TaskFits one task owner) : TaskFits other task owner := by
  simp only [Task.categories, List.forall_mem_cons] at more
  obtain ⟨ids, services, nodes, states, labels, _⟩ := more
  cases fits with
  | id listed => exact .id (ids listed)
  | service listed => exact .service (services listed)
  | serviceName listed => exact .serviceName (services listed)
  | node listed => exact .node (nodes listed)
  | desiredState listed => exact .desiredState (states listed)
  | label listed fits => exact .label (labels listed) fits

theorem mem_listed_concat {value category : String} :
    value ∈ (one.concat other).listed category ↔
      value ∈ one.listed category ∨ value ∈ other.listed category := by
  rw [StringMap.listed_concat, List.mem_append]

theorem listed_subset_concat (one other : StringMap (List String)) (category : String) :
    one.listed category ⊆ (one.concat other).listed category ∧
      other.listed category ⊆ (one.concat other).listed category := by
  rw [StringMap.listed_concat]
  exact ⟨List.subset_append_left _ _, List.subset_append_right _ _⟩

/-- Two maps together accept the services that one of them accepts. -/
theorem serviceFits_concat :
    ServiceFits (one.concat other) service ↔
      ServiceFits one service ∨ ServiceFits other service := by
  constructor
  · rintro (listed | listed)
    · exact (mem_listed_concat.mp listed).imp .id .id
    · exact (mem_listed_concat.mp listed).imp .name .name
  · rintro (fits | fits)
    · exact fits.mono fun category _ => (listed_subset_concat one other category).1
    · exact fits.mono fun category _ => (listed_subset_concat one other category).2

/-- Two maps together accept the tasks that one of them accepts. -/
theorem taskFits_concat :
    TaskFits (one.concat other) task owner ↔
      TaskFits one task owner ∨ TaskFits other task owner := by
  constructor
  · rintro (listed | listed | listed | listed | listed | ⟨listed, fits⟩)
    · exact (mem_listed_concat.mp listed).imp .id .id
    · exact (mem_listed_concat.mp listed).imp .service .service
    · exact (mem_listed_concat.mp listed).imp .serviceName .serviceName
    · exact (mem_listed_concat.mp listed).imp .node .node
    · exact (mem_listed_concat.mp listed).imp .desiredState .desiredState
    · exact (mem_listed_concat.mp listed).imp (.label · fits) (.label · fits)
  · rintro (fits | fits)
    · exact fits.mono fun category _ => (listed_subset_concat one other category).1
    · exact fits.mono fun category _ => (listed_subset_concat one other category).2

end Fits

/-- What one of two tests keeps is kept by one of the two filters. -/
theorem filter_either {α : Type} [DecidableEq α] {both one other : α → Prop} [DecidablePred both]
    [DecidablePred one] [DecidablePred other] (items : List α)
    (either : ∀ item, both item ↔ one item ∨ other item) :
    items.filter both =
      items.filter fun item => item ∈ items.filter one ∨ item ∈ items.filter other := by
  refine List.filter_congr fun item listed => ?_
  simp [List.mem_filter, listed, either]

/-! ## Filters test what fits -/

namespace Filters

variable {accepted : StringMap (List String)}

theorem values_eq (category : String) :
    (⟨some accepted⟩ : Filters).values category = accepted.listed category := by
  simp only [Filters.values, Option.bind_some, StringMap.listed]
  cases accepted.find? category <;> rfl

theorem accepts_iff {category value : String} :
    (⟨some accepted⟩ : Filters).accepts category value = true ↔
      value ∈ accepted.listed category := by
  rw [accepts, values_eq, List.contains_iff_mem]

theorem labelFits_iff {labels : StringMap String} {wanted : String} :
    labelFits labels wanted = true ↔ LabelFits labels wanted := by
  rw [labelFits, Text.splitAtFirst]
  constructor
  · intro fits
    cases cut : Text.splitFirst '=' wanted.toList with
    | none =>
      rw [cut] at fits
      obtain ⟨value, held⟩ := Option.isSome_iff_exists.mp fits
      exact .key (Text.splitFirst_eq_none.mp cut) held
    | some parts =>
      obtain ⟨key, value⟩ := parts
      obtain ⟨whole, unsigned⟩ := Text.splitFirst_eq_some cut
      rw [cut] at fits
      have text : wanted = String.ofList key ++ "=" ++ String.ofList value := by
        rw [← String.ofList_toList (s := wanted), whole]
        simp [String.ofList_append, String.ext_iff]
      rw [text]
      exact .value (by simpa using unsigned) (beq_iff_eq.mp fits)
  · intro fits
    cases fits with
    | key unsigned held =>
      rw [Text.splitFirst_eq_none.mpr unsigned]
      exact Option.isSome_iff_exists.mpr ⟨_, held⟩
    | @value key value unsigned held =>
      have parts : (key ++ "=" ++ value).toList = key.toList ++ '=' :: value.toList := by simp
      rw [parts, Text.splitFirst_append unsigned value.toList]
      simpa using held

theorem acceptsLabels_iff {labels : StringMap String} :
    (⟨some accepted⟩ : Filters).acceptsLabels labels = true ↔
      ∃ wanted ∈ accepted.listed "label", LabelFits labels wanted := by
  rw [acceptsLabels, values_eq, List.any_eq_true]
  exact exists_congr fun wanted => and_congr_right fun _ => labelFits_iff

theorem passesService_iff {service : Service} :
    (⟨some accepted⟩ : Filters).passesService service = true ↔ ServiceFits accepted service := by
  have active : (⟨some accepted⟩ : Filters).isActive = true := rfl
  rw [passesService, active, Bool.not_true, Bool.false_or, Bool.or_eq_true, accepts_iff,
    accepts_iff]
  constructor
  · rintro (listed | listed)
    · exact .id listed
    · exact .name listed
  · rintro (listed | listed)
    · exact .inl listed
    · exact .inr listed

/-- A task passes with its owner exactly if one of the accepted values fits it. -/
theorem passesTask_iff {task : Task} {owner : Service} (owned : owner.id = task.serviceId) :
    (⟨some accepted⟩ : Filters).passesTask task owner = true ↔ TaskFits accepted task owner := by
  have active : (⟨some accepted⟩ : Filters).isActive = true := rfl
  rw [passesTask, active, Bool.not_true, Bool.false_or]
  simp only [Bool.or_eq_true, accepts_iff, acceptsLabels_iff, or_assoc, ← owned]
  constructor
  · rintro (listed | listed | listed | listed | listed | ⟨wanted, listed, fits⟩)
    · exact .id listed
    · exact .service listed
    · exact .serviceName listed
    · exact .node listed
    · exact .desiredState listed
    · exact .label listed fits
  · rintro (listed | listed | listed | listed | listed | ⟨listed, fits⟩)
    · exact .inl listed
    · exact .inr (.inl listed)
    · exact .inr (.inr (.inl listed))
    · exact .inr (.inr (.inr (.inl listed)))
    · exact .inr (.inr (.inr (.inr (.inl listed))))
    · exact .inr (.inr (.inr (.inr (.inr ⟨_, listed, fits⟩))))

/-- A filter is read from every text that is written for its values. -/
theorem parse_of_writes {text : String} (writes : codec.Writes (some accepted) text) :
    parse (some text) = ⟨some accepted⟩ := by
  have faithful := ((Json.Codec.Faithful.string.list).map).optional nofun
  have read := (faithful.losesNothing.reads (some accepted) text writes).1
  simp only [parse, codec, read]

end Filters

instance (accepted : StringMap (List String)) (service : Service) :
    Decidable (ServiceFits accepted service) :=
  decidable_of_iff _ Filters.passesService_iff

/-! ## Owners -/

namespace Member

/-- The service that a task belongs to: the first with the identifier that the task names. -/
def owner? (member : Member) (task : Task) : Option Service :=
  member.services.find? fun service => service.id == task.serviceId

/-- Every task belongs to a registered service. -/
def TasksOwned (member : Member) : Prop :=
  ∀ task ∈ member.tasks, task.serviceId ∈ member.services.map Service.id

variable {member : Member}

theorem of_owner? {task : Task} {owner : Service} (found : member.owner? task = some owner) :
    owner ∈ member.services ∧ owner.id = task.serviceId := by
  rw [owner?] at found
  exact ⟨List.mem_of_find?_eq_some found, by simpa using List.find?_some found⟩

theorem TasksOwned.exists_owner (owned : member.TasksOwned) {task : Task}
    (listed : task ∈ member.tasks) : ∃ owner, member.owner? task = some owner := by
  obtain ⟨service, registered, same⟩ := List.mem_map.mp (owned task listed)
  exact Option.isSome_iff_exists.mp
    (List.find?_isSome.mpr ⟨service, registered, beq_iff_eq.mpr same⟩)

/-- A task is accepted if one of the accepted values fits it and its owner. -/
def Accepts (member : Member) (accepted : StringMap (List String)) (task : Task) : Prop :=
  ∃ owner, member.owner? task = some owner ∧ TaskFits accepted task owner

theorem accepts_iff_of_owner? {accepted : StringMap (List String)} {task : Task} {owner : Service}
    (found : member.owner? task = some owner) :
    (⟨some accepted⟩ : Filters).passesTask task owner = true ↔ member.Accepts accepted task := by
  rw [Filters.passesTask_iff (of_owner? found).2]
  constructor
  · intro fits
    exact ⟨owner, found, fits⟩
  · rintro ⟨other, sameFound, fits⟩
    cases found.symm.trans sameFound
    exact fits

instance (accepted : StringMap (List String)) (task : Task) :
    Decidable (member.Accepts accepted task) :=
  match found : member.owner? task with
  | none => isFalse fun ⟨_, held, _⟩ => nomatch found.symm.trans held
  | some _ => decidable_of_iff _ (accepts_iff_of_owner? found)

/-- Two maps together accept the tasks of a member that one of them accepts. -/
theorem accepts_concat {one other : StringMap (List String)} {task : Task} :
    member.Accepts (one.concat other) task ↔
      member.Accepts one task ∨ member.Accepts other task := by
  simp only [Accepts, taskFits_concat, and_or_left, exists_or]

/-- Only the categories of tasks decide which of them are accepted. -/
theorem accepts_congr {one other : StringMap (List String)} {task : Task}
    (agree : ∀ category ∈ Task.categories, one.listed category = other.listed category) :
    member.Accepts one task ↔ member.Accepts other task := by
  refine exists_congr fun owner => and_congr_right fun _ => ⟨?_, ?_⟩
  · exact .mono fun category listed => agree category listed ▸ List.Subset.refl _
  · exact .mono fun category listed => agree category listed ▸ List.Subset.refl _

/-- Of tasks that have owners the accepted ones are selected, in their order. -/
theorem selectTasks_eq {accepted : StringMap (List String)} {tasks : List Task}
    (owned : ∀ task ∈ tasks, ∃ owner, member.owner? task = some owner) :
    member.selectTasks ⟨some accepted⟩ tasks = .ok (tasks.filter (member.Accepts accepted)) := by
  induction tasks with
  | nil => rfl
  | cons task rest ih =>
    obtain ⟨owner, found⟩ := owned task List.mem_cons_self
    have later := ih fun other listed => owned other (List.mem_cons_of_mem _ listed)
    have passes : (⟨some accepted⟩ : Filters).passesTask task owner =
        decide (member.Accepts accepted task) :=
      Bool.eq_iff_iff.mpr ((accepts_iff_of_owner? found).trans decide_eq_true_iff.symm)
    rw [owner?] at found
    simp only [selectTasks, found, later, passes, List.filter_cons]
    rfl

/-! ## Runs -/

namespace TasksOwned

variable (owned : member.TasksOwned)
include owned

theorem sameServices {after : Member} (same : member.SameServices after) : after.TasksOwned := by
  intro task listed
  rw [same.tasks] at listed
  rw [same.services]
  exact owned task listed

/-- The tasks of a new service belong to it. -/
theorem afterCreating {spec : ServiceSpec} {named : Nat} {service : Service} {placed : List Placed}
    {turn : RoundRobin} (created : member.Created spec named service placed turn) :
    (member.afterCreating named service placed turn).TasksOwned := by
  intro task listed
  have registered := listed
  rw [Member.afterCreating, tasks_register] at registered
  change _ ∈ (member.services ++ [service]).map Service.id
  rw [List.map_append]
  rcases List.mem_append.mp registered with old | new
  · exact List.mem_append_left _ (owned task old)
  · obtain ⟨pair, present, rfl⟩ := List.mem_map.mp new
    rw [(created.all_placed.task_links present).1]
    exact List.mem_append_right _ List.mem_cons_self

/-- A service that is updated keeps its identifier, and its new tasks belong to it. -/
theorem afterUpdating {asked : String} {spec : ServiceSpec} {place : Fin member.services.length}
    {service : Service} {placed : List Placed} {turn : RoundRobin}
    (updated : member.Updated asked spec place service placed turn) :
    (member.afterUpdating place service placed turn).TasksOwned := by
  have sameId : service.id = (member.services.get place).id := by
    rw [updated.service_eq]
    rfl
  intro task listed
  change _ ∈ (member.services.set place service).map Service.id
  rw [Whole.map_id_set sameId]
  have registered := listed
  rw [Member.afterUpdating, tasks_register, tasks_withoutTasksOf] at registered
  rcases List.mem_append.mp registered with old | new
  · exact owned task (List.mem_of_mem_filter old)
  · obtain ⟨pair, present, rfl⟩ := List.mem_map.mp new
    rw [(updated.all_placed.task_links present).1, sameId]
    exact List.mem_map_of_mem (List.get_mem _ place)

/-- No task of a service that is deleted is left. -/
theorem afterDeleting (place : Fin member.services.length) :
    (member.afterDeleting place).TasksOwned := by
  intro task listed
  rw [Member.afterDeleting, tasks_withoutTasksOf] at listed
  obtain ⟨old, apart⟩ := List.mem_filter.mp listed
  obtain ⟨service, registered, same⟩ := List.mem_map.mp (owned task old)
  have different : service.id ≠ (member.services.get place).id := by
    rw [same]
    exact bne_iff_ne.mp apart
  have kept := mem_eraseIdx_of_key_ne Service.id registered different
  exact List.mem_map.mpr ⟨service, (perm_fillGap _ place.isLt).mem_iff.mpr kept, same⟩

theorem step {command : Command} {outcome : Except Halt Answer} {after : Member}
    (step : ServiceStep member command outcome after) : after.TasksOwned := by
  cases step with
  | kept same => exact owned.sameServices same
  | created created => exact owned.afterCreating created
  | updated updated => exact owned.afterUpdating updated
  | deleted => exact owned.afterDeleting _

end TasksOwned

end Member

/-- In every run the tasks of a member that was just started belong to registered services, even
if identifiers are drawn twice. -/
theorem World.tasksOwned_after {n : Nat} {world : World n} {index : Fin n} {settings : Settings}
    {machine : Machine} {observer : Observer} {supply : Supply}
    (started : world.member index = .start settings machine observer supply)
    (requests : List (Fin n × Command)) : ((world.after requests).member index).TasksOwned := by
  refine World.after_induction (motive := fun _ member => member.TasksOwned) ?_ ?_ ?_ requests
  · rw [started]
    exact fun task listed => absurd listed List.not_mem_nil
  · exact fun _ _ _ _ same owned => owned.sameServices same
  · exact fun _ _ _ step owned => owned.step step

/-! ## Requests that list -/

namespace World

variable {n : Nat} {world : World n} {index : Fin n}

/-- Tasks that have owners are listed as a filter accepts them. -/
theorem step_listTasks (inSwarm : (world.member index).swarm.isSome)
    (owned : (world.member index).TasksOwned) (accepted : StringMap (List String)) :
    (world.step (perform index (.listTasks ⟨some accepted⟩))).1 =
      .ok (.tasks ((world.member index).tasks.filter ((world.member index).Accepts accepted))) := by
  have listed : (world.member index).listTasks ⟨some accepted⟩ =
      .ok ((world.member index).tasks.filter ((world.member index).Accepts accepted)) := by
    rw [Member.listTasks_of_inSwarm inSwarm]
    exact Member.selectTasks_eq fun task => owned.exists_owner
  rw [perform, outcome_view world index (Member.listTasks · ⟨some accepted⟩) .tasks, listed]
  rfl

theorem step_listServices (inSwarm : (world.member index).swarm.isSome)
    (accepted : StringMap (List String)) :
    (world.step (perform index (.listServices ⟨some accepted⟩))).1 =
      .ok (.services ((world.member index).services.filter (ServiceFits accepted))) := by
  have passes : (⟨some accepted⟩ : Filters).passesService =
      fun service => decide (ServiceFits accepted service) := by
    funext service
    exact Bool.eq_iff_iff.mpr (Filters.passesService_iff.trans decide_eq_true_iff.symm)
  rw [perform, outcome_view world index (Member.listServices · ⟨some accepted⟩) .services,
    Member.listServices_of_inSwarm inSwarm, passes]
  rfl

/-- Without a filter everything is listed. -/
theorem step_list_all (inSwarm : (world.member index).swarm.isSome) :
    (world.step (perform index (.listTasks .none))).1 = .ok (.tasks (world.member index).tasks) ∧
      (world.step (perform index (.listServices .none))).1 =
        .ok (.services (world.member index).services) := by
  have all : (world.member index).services.filter Filters.none.passesService =
      (world.member index).services := List.filter_eq_self.mpr fun _ _ => rfl
  constructor
  · rw [perform, outcome_view world index (Member.listTasks · .none) .tasks,
      Member.listTasks_of_inSwarm inSwarm]
    rfl
  · rw [perform, outcome_view world index (Member.listServices · .none) .services,
      Member.listServices_of_inSwarm inSwarm, all]
    rfl

end World

/-- **A filter selects exactly what its values fit.**  Let a run lead a member that was just
started into a swarm.  Every task of it belongs to a registered service, the only one with that
identifier if draws do not repeat.  Listing tasks and services does not fail: without a filter it
lists the registries, and with one what the accepted values fit (`TaskFits`, `ServiceFits`), in the
order of the registries; a filter may be given by any text written for its values.  The values of
two filters together select what one of them selects, and what is listed depends on no other
categories than those of tasks and of services. -/
theorem filters_select_exactly {n : Nat} (world : World n) (index : Fin n) (settings : Settings)
    (machine : Machine) (observer : Observer) (supply : Supply)
    (started : world.member index = .start settings machine observer supply)
    (requests : List (Fin n × Command)) :
    let reached := world.after requests
    let member := reached.member index
    let tasks := fun filters => (reached.step (World.perform index (.listTasks filters))).1
    let services := fun filters => (reached.step (World.perform index (.listServices filters))).1
    member.swarm.isSome →
    (∀ task ∈ member.tasks, ∃ owner ∈ member.services,
      member.owner? task = some owner ∧ owner.id = task.serviceId ∧
        (supply.Distinct → ∀ other ∈ member.services, other.id = task.serviceId → other = owner)) ∧
    tasks .none = .ok (.tasks member.tasks) ∧ services .none = .ok (.services member.services) ∧
    (∀ accepted : StringMap (List String),
      tasks ⟨some accepted⟩ = .ok (.tasks (member.tasks.filter (member.Accepts accepted))) ∧
      services ⟨some accepted⟩ = .ok (.services (member.services.filter (ServiceFits accepted))) ∧
      ∀ text, Filters.codec.Writes (some accepted) text →
        Filters.parse (some text) = ⟨some accepted⟩) ∧
    ∀ one other : StringMap (List String),
      (∃ ofOne ofOther, tasks ⟨some one⟩ = .ok (.tasks ofOne) ∧
        tasks ⟨some other⟩ = .ok (.tasks ofOther) ∧
        tasks ⟨some (one.concat other)⟩ =
          .ok (.tasks (member.tasks.filter fun task => task ∈ ofOne ∨ task ∈ ofOther))) ∧
      (∃ ofOne ofOther, services ⟨some one⟩ = .ok (.services ofOne) ∧
        services ⟨some other⟩ = .ok (.services ofOther) ∧
        services ⟨some (one.concat other)⟩ = .ok (.services
          (member.services.filter fun service => service ∈ ofOne ∨ service ∈ ofOther))) ∧
      ((∀ category ∈ Task.categories, one.listed category = other.listed category) →
        tasks ⟨some one⟩ = tasks ⟨some other⟩) ∧
      ((∀ category ∈ Service.categories, one.listed category = other.listed category) →
        services ⟨some one⟩ = services ⟨some other⟩) := by
  intro reached member tasks services inSwarm
  have owned : member.TasksOwned := World.tasksOwned_after started requests
  obtain ⟨allTasks, allServices⟩ := World.step_list_all inSwarm
  have tasksOf : ∀ accepted, tasks ⟨some accepted⟩ =
      .ok (.tasks (member.tasks.filter (member.Accepts accepted))) :=
    World.step_listTasks inSwarm owned
  have servicesOf : ∀ accepted, services ⟨some accepted⟩ =
      .ok (.services (member.services.filter (ServiceFits accepted))) :=
    World.step_listServices inSwarm
  refine ⟨?_, allTasks, allServices,
    fun accepted => ⟨tasksOf accepted, servicesOf accepted, ?_⟩, ?_⟩
  · intro task listed
    obtain ⟨owner, found⟩ := owned.exists_owner listed
    obtain ⟨registered, same⟩ := Member.of_owner? found
    refine ⟨owner, registered, found, same, fun distinct other otherRegistered otherSame => ?_⟩
    obtain ⟨pairs, whole⟩ := World.whole_after started distinct requests
    exact List.inj_on_of_nodup_map whole.sound.services_nodup otherRegistered registered
      (otherSame.trans same.symm)
  · exact fun text => Filters.parse_of_writes
  intro one other
  refine ⟨⟨_, _, tasksOf one, tasksOf other, ?_⟩, ⟨_, _, servicesOf one, servicesOf other, ?_⟩,
    fun agree => ?_, fun agree => ?_⟩
  · rw [tasksOf, filter_either _ fun task => Member.accepts_concat]
  · rw [servicesOf, filter_either _ fun service => serviceFits_concat]
  · rw [tasksOf, tasksOf]
    refine congrArg (Except.ok ∘ Answer.tasks) (List.filter_congr fun task _ => ?_)
    exact decide_eq_decide.mpr (Member.accepts_congr agree)
  · rw [servicesOf, servicesOf]
    refine congrArg (Except.ok ∘ Answer.services) (List.filter_congr fun service _ => ?_)
    exact decide_eq_decide.mpr (serviceFits_congr agree)

/-- A label value with an equals sign in it selects the tasks of the service with that label, and
together with the name of another service the tasks of both. -/
theorem filters_select_exactly_labelled :
    let reached := World.twoMembers.after World.labelled
    let member := reached.member 0
    let tasks := fun filters => (reached.step (World.perform 0 (.listTasks filters))).1
    let byLabel := StringMap.empty.insert "label" ["tier=a=b"]
    let byName := StringMap.empty.insert "service" ["log"]
    (member.tasks.filter (member.Accepts byLabel)).length = 2 ∧ member.tasks.length = 4 ∧
      tasks ⟨some byLabel⟩ = .ok (.tasks (member.tasks.filter (member.Accepts byLabel))) ∧
      Filters.parse (some "\x7b\"label\":[\"tier=a=b\"]\x7d") = ⟨some byLabel⟩ ∧
      ∃ labelled named, tasks ⟨some byLabel⟩ = .ok (.tasks labelled) ∧
        tasks ⟨some byName⟩ = .ok (.tasks named) ∧
        tasks ⟨some (byLabel.concat byName)⟩ = .ok (.tasks
          (member.tasks.filter fun task => task ∈ labelled ∨ task ∈ named)) := by
  intro reached member tasks byLabel byName
  obtain ⟨_, _, _, selects, combine⟩ := filters_select_exactly World.twoMembers 0 {} default
    .listening (.tally 'a') (World.member_start _ _ _ _ _ 0) World.labelled (by decide +kernel)
  obtain ⟨listed, _, read⟩ := selects byLabel
  refine ⟨by decide +kernel, by decide +kernel, listed, ?_, (combine byLabel byName).1⟩
  exact read _ ⟨_, Json.Value.reordered_refl _, by decide +kernel⟩

end SwarmManager
