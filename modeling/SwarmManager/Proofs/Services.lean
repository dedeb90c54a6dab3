import SwarmManager.Member.Services
import SwarmManager.Proofs.Actions
import SwarmManager.Proofs.Placement

/-!
# What requests about services do

A request to create, update or delete a service either fails for one of a few reasons and
leaves the member as it was but for draws, or it succeeds and does what `Created` or
`Updated` says, or removes the service.  These are the only statements that look into the
three requests; whatever holds of a member over its life is derived from them.
-/

namespace SwarmManager.Member

set_option autoImplicit false

/-- The member after so many draws. -/
def drew (member : Member) (count : Nat) : Member :=
  { member with supply := member.supply.ahead count }

theorem drew_zero (member : Member) : member.drew 0 = member := rfl

theorem drew_drew (member : Member) (first second : Nat) :
    (member.drew first).drew second = member.drew (first + second) := by
  simp only [drew, Supply.ahead_ahead]

/-! ## Registering and removing tasks -/

section Register

variable (member : Member) (placed : List Placed)

theorem tasks_register :
    (member.register placed).tasks = member.tasks ++ placed.map Placed.task := by
  cases observer : member.observer <;> simp [register, tell, observer]

theorem instances_register :
    (member.register placed).instances.toList =
      member.instances.toList ++ placed.map Placed.process := by
  cases observer : member.observer <;>
    simp [register, tell, observer, InstanceRegistry.toList_append]

theorem services_register : (member.register placed).services = member.services := by
  cases observer : member.observer <;> simp [register, tell, observer]

theorem supply_register : (member.register placed).supply = member.supply := by
  cases observer : member.observer <;> simp [register, tell, observer]

theorem turn_register : (member.register placed).turn = member.turn := by
  cases observer : member.observer <;> simp [register, tell, observer]

theorem tasks_withoutTasksOf (serviceId : String) :
    (member.withoutTasksOf serviceId).tasks =
      member.tasks.filter fun task => task.serviceId != serviceId := by
  simp only [withoutTasksOf, List.partition_eq_filter_filter]
  rfl

theorem instances_withoutTasksOf (serviceId : String) :
    (member.withoutTasksOf serviceId).instances =
      member.instances.removeAll
        ((member.tasks.filter fun task => task.serviceId == serviceId).map Task.containerId) := by
  simp only [withoutTasksOf, List.partition_eq_filter_filter]

end Register

/-! ## The parts of a request -/

/-- Whether a member is in a swarm is seen from its swarm. -/
theorem inspectSwarm_eq_ok {member : Member} {swarm : Swarm}
    (inside : member.inspectSwarm = .ok swarm) : member.swarm = some swarm := by
  simp only [inspectSwarm] at inside
  split at inside
  next found => rw [found, Except.ok.inj inside]
  next => exact absurd inside (by simp)

theorem inspectSwarm_eq_error {member : Member} {error : Error}
    (outside : member.inspectSwarm = .error error) : member.swarm = none ∧ .notInSwarm = error := by
  simp only [inspectSwarm] at outside
  split at outside
  next => exact absurd outside (by simp)
  next none => exact ⟨none, Except.error.inj outside⟩

theorem run_draw (member : Member) :
    (draw.run.run member : Except Error Draw × Member) =
      (.ok member.supply.next, member.drew 1) := rfl

/-- The name of a spec takes a draw only if it is empty. -/
theorem run_nameOrDrawn (spec : ServiceSpec) (member : Member) :
    ∃ named ≤ 1, (nameOrDrawn spec).run.run member =
      (.ok (if spec.name.isEmpty then member.supply.next.id else spec.name),
        member.drew named) := by
  by_cases empty : spec.name.isEmpty
  · refine ⟨1, Nat.le_refl 1, ?_⟩
    simp only [nameOrDrawn, empty, if_true, run_bind, run_draw, run_pure]
  · refine ⟨0, Nat.zero_le 1, ?_⟩
    simp only [nameOrDrawn, empty, drew_zero]
    rfl

/-- Placing without registering changes the turn and takes draws, if there are
nodes enough. -/
theorem run_place (service : Service) (suffix : String) (member : Member) :
    (∃ error, service.spec.objection? member.nodes = some error ∧
      (place service suffix).run.run member = (.error error, member)) ∨
    ∃ placed turn,
      service.spec.desiredTasks member.nodes.length = .ok placed.length ∧
      PlacedFrom member.nodes service suffix placed.length 0 member.turn member.supply placed turn ∧
      (place service suffix).run.run member =
        (.ok placed, { member.drew (2 * placed.length) with turn := turn }) := by
  rcases done : placeTasks member.nodes service suffix member.turn member.supply with
    error | ⟨placed, turn, supply⟩
  · left
    refine ⟨error, placeTasks_eq_error.mp done, ?_⟩
    simp only [place, run_bind, run_get, run_liftM, done]
  · right
    obtain ⟨wanted, all, rfl⟩ := placeTasks_placed done
    refine ⟨placed, turn, wanted, all, ?_⟩
    simp only [place, run_bind, run_get, run_liftM, done, run_set, run_pure]
    rfl

/-! ## Creating -/

/-- What is needed for a request to create a service to succeed, and what it
chooses: `named` draws for the name, one for the service, and two for each placed
task. -/
structure Created (member : Member) (spec : ServiceSpec) (named : Nat) (service : Service)
    (placed : List Placed) (turn : RoundRobin) : Prop where
  inSwarm : member.swarm.isSome
  hasNodes : member.nodes ≠ []
  service_eq : service = .create (member.supply.ahead named).next
    { spec with name := if spec.name.isEmpty then member.supply.next.id else spec.name }
  name_free : ∀ other ∈ member.services, other.spec.name ≠ service.spec.name
  wanted : service.spec.desiredTasks member.nodes.length = .ok placed.length
  all_placed : PlacedFrom member.nodes service "" placed.length 0 member.turn
    (member.supply.ahead (named + 1)) placed turn

/-- The name that a service created with the spec is to have. -/
def nameFor (member : Member) (spec : ServiceSpec) : String :=
  if spec.name.isEmpty then member.supply.next.id else spec.name

/-- Why a request to create a service fails: each reason counts if none before it does. -/
inductive CreationRefused (member : Member) (spec : ServiceSpec) : Error → Prop
  | outside (outside : member.swarm = none) : CreationRefused member spec .notInSwarm
  | noNodes (inSwarm : member.swarm.isSome) (noNodes : member.nodes = []) :
      CreationRefused member spec .noNodes
  | taken (inSwarm : member.swarm.isSome) (hasNodes : member.nodes ≠ [])
      (taken : ∃ other ∈ member.services, other.spec.name = member.nameFor spec) :
      CreationRefused member spec (.nameConflict (member.nameFor spec))
  | unplaced {error : Error} (inSwarm : member.swarm.isSome) (hasNodes : member.nodes ≠ [])
      (free : ∀ other ∈ member.services, other.spec.name ≠ member.nameFor spec)
      (objection : spec.objection? member.nodes = some error) : CreationRefused member spec error

/-- The member after a service was created. -/
def afterCreating (member : Member) (named : Nat) (service : Service) (placed : List Placed)
    (turn : RoundRobin) : Member :=
  { ({ member.drew (named + 1 + 2 * placed.length) with turn := turn }).register placed with
    services := member.services ++ [service] }

/-- Creating a service takes the draws for its name, itself and what is placed. -/
theorem supply_afterCreating (member : Member) (named : Nat) (service : Service)
    (placed : List Placed) (turn : RoundRobin) :
    (member.afterCreating named service placed turn).supply =
      member.supply.ahead (named + 1 + 2 * placed.length) :=
  supply_register _ placed

/-- A request to create a service does what `afterCreating` says or nothing. -/
theorem run_createService (member : Member) (spec : ServiceSpec) :
    (∃ error count, CreationRefused member spec error ∧
      (createService spec).run.run member = (.error error, member.drew count)) ∨
    ∃ named service placed turn, Created member spec named service placed turn ∧
      (createService spec).run.run member =
        (.ok service, member.afterCreating named service placed turn) := by
  simp only [createService, run_bind, run_get, run_liftM]
  cases inside : member.inspectSwarm with
  | error error =>
    obtain ⟨outside, rfl⟩ := inspectSwarm_eq_error inside
    exact .inl ⟨.notInSwarm, 0, .outside outside, rfl⟩
  | ok swarm =>
    have inSwarm : member.swarm.isSome := by simp [inspectSwarm_eq_ok inside]
    by_cases noNodes : member.nodes.isEmpty
    · exact .inl ⟨.noNodes, 0, .noNodes inSwarm (List.isEmpty_iff.mp noNodes), by
        simp only [noNodes, ↓reduceIte, run_bind, run_throw, drew_zero]⟩
    have hasNodes : member.nodes ≠ [] := by simpa using noNodes
    obtain ⟨named, _, name⟩ := run_nameOrDrawn spec member
    simp only [noNodes, Bool.false_eq_true, ↓reduceIte, run_bind, name, run_get]
    generalize chosen : (if spec.name.isEmpty then member.supply.next.id else spec.name) = label
    by_cases taken : (member.drew named).services.any fun service => service.spec.name == label
    · obtain ⟨other, present, same⟩ := List.any_eq_true.mp taken
      refine .inl ⟨.nameConflict label, named, chosen ▸ .taken inSwarm hasNodes
        ⟨other, present, (beq_iff_eq.mp same).trans chosen.symm⟩, ?_⟩
      simp only [taken, ↓reduceIte, run_bind, run_throw]
    have free : ∀ other ∈ member.services, other.spec.name ≠ label := fun other present same =>
      taken (List.any_eq_true.mpr ⟨other, present, beq_iff_eq.mpr same⟩)
    simp only [taken, Bool.false_eq_true, ↓reduceIte, run_bind, run_draw, drew_drew]
    generalize created :
      Service.create (member.drew named).supply.next { spec with name := label } = service
    rcases run_place service "" (member.drew (named + 1)) with
      ⟨error, objection, failed⟩ | ⟨placed, turn, wanted, all, done⟩
    · rw [← created] at objection
      refine .inl ⟨error, named + 1, .unplaced inSwarm hasNodes ?_ objection, by
        simp only [failed]⟩
      rw [nameFor, chosen]
      exact free
    · refine .inr ⟨named, service, placed, turn, ⟨inSwarm, hasNodes, ?_, ?_, wanted, all⟩, ?_⟩
      · rw [chosen, ← created]
        rfl
      · exact created ▸ free
      · simp only [done, run_modify, run_pure, drew_drew, services_register]
        rfl

/-! ## Updating -/

/-- What is needed for a request to update a service to succeed, and what it
chooses: one draw for the instant and two for each placed task. -/
structure Updated (member : Member) (asked : String) (spec : ServiceSpec)
    (place : Fin member.services.length) (service : Service) (placed : List Placed)
    (turn : RoundRobin) : Prop where
  inSwarm : member.swarm.isSome
  located : member.locateService asked = .ok place
  service_eq : service = (member.services.get place).revise
    { spec with
      name := if spec.name.isEmpty then (member.services.get place).spec.name else spec.name }
    member.supply.next.instant
  name_free : ∀ other ∈ member.services.eraseIdx place, other.spec.name ≠ service.spec.name
  wanted : service.spec.desiredTasks member.nodes.length = .ok placed.length
  all_placed : PlacedFrom member.nodes service updatedSuffix placed.length 0 member.turn
    (member.supply.ahead 1) placed turn

/-- The name that a service updated with the spec is to have. -/
def nameKept (service : Service) (spec : ServiceSpec) : String :=
  if spec.name.isEmpty then service.spec.name else spec.name

/-- Why a request to update a service fails: each reason counts if none before it does. -/
inductive UpdateRefused (member : Member) (asked : String) (spec : ServiceSpec) : Error → Prop
  | outside (outside : member.swarm = none) : UpdateRefused member asked spec .notInSwarm
  | missing {error : Error} (inSwarm : member.swarm.isSome)
      (missing : member.locateService asked = .error error) : UpdateRefused member asked spec error
  | taken {place : Fin member.services.length} (inSwarm : member.swarm.isSome)
      (located : member.locateService asked = .ok place)
      (taken : ∃ other ∈ member.services.eraseIdx place,
        other.spec.name = nameKept (member.services.get place) spec) :
      UpdateRefused member asked spec
        (.nameConflict (nameKept (member.services.get place) spec))
  | unplaced {place : Fin member.services.length} {error : Error} (inSwarm : member.swarm.isSome)
      (located : member.locateService asked = .ok place)
      (free : ∀ other ∈ member.services.eraseIdx place,
        other.spec.name ≠ nameKept (member.services.get place) spec)
      (objection : spec.objection? member.nodes = some error) :
      UpdateRefused member asked spec error

/-- The member after a service was updated. -/
def afterUpdating (member : Member) (place : Fin member.services.length) (service : Service)
    (placed : List Placed) (turn : RoundRobin) : Member :=
  { (({ member.drew (1 + 2 * placed.length) with turn := turn }).withoutTasksOf
      service.id).register placed with
    services := member.services.set place service }

/-- Updating a service takes a draw for its instant and those for what is placed. -/
theorem supply_afterUpdating (member : Member) (place : Fin member.services.length)
    (service : Service) (placed : List Placed) (turn : RoundRobin) :
    (member.afterUpdating place service placed turn).supply =
      member.supply.ahead (1 + 2 * placed.length) :=
  supply_register _ placed

/-- A request to update a service does what `afterUpdating` says or nothing. -/
theorem run_updateService (member : Member) (asked : String) (spec : ServiceSpec) :
    (∃ error count, UpdateRefused member asked spec error ∧
      (updateService asked spec).run.run member = (.error error, member.drew count)) ∨
    ∃ place service placed turn, Updated member asked spec place service placed turn ∧
      (updateService asked spec).run.run member =
        (.ok service, member.afterUpdating place service placed turn) := by
  simp only [updateService, run_bind, run_get, run_liftM]
  cases inside : member.inspectSwarm with
  | error error =>
    obtain ⟨outside, rfl⟩ := inspectSwarm_eq_error inside
    exact .inl ⟨.notInSwarm, 0, .outside outside, rfl⟩
  | ok swarm =>
    have inSwarm : member.swarm.isSome := by simp [inspectSwarm_eq_ok inside]
    cases located : member.locateService asked with
    | error error => exact .inl ⟨error, 0, .missing inSwarm located, rfl⟩
    | ok position =>
      simp only []
      generalize chosen :
        (if spec.name.isEmpty then (member.services.get position).spec.name else spec.name) = label
      by_cases taken :
        (member.services.eraseIdx position.val).any fun service => service.spec.name == label
      · obtain ⟨other, present, same⟩ := List.any_eq_true.mp taken
        refine .inl ⟨.nameConflict label, 0, chosen ▸ .taken inSwarm located
          ⟨other, present, (beq_iff_eq.mp same).trans chosen.symm⟩, ?_⟩
        simp only [taken, ↓reduceIte, run_bind, run_throw, drew_zero]
      have free : ∀ other ∈ member.services.eraseIdx position, other.spec.name ≠ label :=
        fun other present same =>
          taken (List.any_eq_true.mpr ⟨other, present, beq_iff_eq.mpr same⟩)
      simp only [taken, Bool.false_eq_true, ↓reduceIte, run_bind, run_draw]
      generalize revised : (member.services.get position).revise { spec with name := label }
        member.supply.next.instant = service
      rcases run_place service updatedSuffix (member.drew 1) with
        ⟨error, objection, failed⟩ | ⟨placed, turn, wanted, all, done⟩
      · rw [← revised] at objection
        refine .inl ⟨error, 1, .unplaced inSwarm located ?_ objection, by simp only [failed]⟩
        rw [nameKept, chosen]
        exact free
      · refine .inr ⟨position, service, placed, turn, ⟨inSwarm, located, ?_, ?_, wanted, all⟩, ?_⟩
        · rw [chosen, ← revised]
        · exact revised ▸ free
        · simp only [done, run_modify, run_pure, drew_drew, services_register]
          rfl

/-! ## Deleting -/

/-- The member after a service was deleted. -/
def afterDeleting (member : Member) (place : Fin member.services.length) : Member :=
  ({ member with services := fillGap member.services place }).withoutTasksOf
    (member.services.get place).id

/-- A request to delete a service does what `afterDeleting` says or nothing. -/
theorem run_deleteService (member : Member) (asked : String) :
    (∃ error, (deleteService asked).run.run member = (.error error, member)) ∨
    ∃ place, member.swarm.isSome ∧ member.locateService asked = .ok place ∧
      (deleteService asked).run.run member = (.ok ⟨⟩, member.afterDeleting place) := by
  simp only [deleteService, run_bind, run_get, run_liftM]
  cases inside : member.inspectSwarm with
  | error error => exact .inl ⟨error, rfl⟩
  | ok swarm =>
    cases located : member.locateService asked with
    | error error => exact .inl ⟨error, rfl⟩
    | ok position =>
      refine .inr ⟨position, ?_, rfl, ?_⟩
      · simp [inspectSwarm_eq_ok inside]
      · simp only [run_modify]
        rfl

end SwarmManager.Member
