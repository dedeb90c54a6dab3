import SwarmManager.Proofs.Names
import SwarmManager.Proofs.Start

/-!
# When services are refused

A request to create or update a service is checked in a few places, one after the other: in
the request, in the look-up of the service, in the count of its tasks and at each task that is
placed.  `Member.creationFailure?` and `Member.updateFailure?` say in one place which check
fails first, if one does, and `services_refused_exactly` that the requests fail as they say and
only then.

Nothing fails late.  The loop that places tasks finds a node for each if it finds one for the
first (`placeFrom_isSome`), and whatever fails leaves the member as it was but for draws.
-/

namespace SwarmManager

set_option autoImplicit false

namespace Member

/-! ## Which check fails -/

/-- Why the member creates no service with the spec, if it does not. -/
def creationFailure? (member : Member) (spec : ServiceSpec) : Option Error :=
  if member.swarm.isNone then some .notInSwarm
  else if member.nodes.isEmpty then some .noNodes
  else if spec.name ≠ "" ∧ ∃ service ∈ member.services, service.spec.name = spec.name then
    some (.nameConflict spec.name)
  else if ¬ spec.isGlobal ∧ ServiceSpec.maxReplicas < spec.replicas then
    some (ServiceSpec.tooManyReplicas spec.replicas)
  else none

/-- Why the member does not update the service that is asked for to the spec, if it does not. -/
def updateFailure? (member : Member) (asked : String) (spec : ServiceSpec) : Option Error :=
  if member.swarm.isNone then some .notInSwarm
  else match member.services.find? fun service => service.answersTo asked with
    | none => some (.serviceNotFound asked)
    | some found =>
      if spec.name ≠ "" ∧
          ∃ other ∈ member.services, other ≠ found ∧ other.spec.name = spec.name then
        some (.nameConflict spec.name)
      else if ¬ spec.isGlobal ∧ ServiceSpec.maxReplicas < spec.replicas then
        some (ServiceSpec.tooManyReplicas spec.replicas)
      else if member.nodes.isEmpty ∧ ¬ spec.isGlobal ∧ 0 < spec.replicas then some .noNodes
      else none

/-- The services with another one in place of the first that is asked for. -/
def replacing (member : Member) (asked : String) (service : Service) : List Service :=
  member.services.set (member.services.findIdx fun other => other.answersTo asked) service

/-- No service has the identifier for its name that is drawn next. -/
def DrawsUnusedName (member : Member) : Prop :=
  ∀ service ∈ member.services, service.spec.name ≠ member.supply.next.id

variable {member : Member} {spec : ServiceSpec} {asked : String} {error : Error}

theorem not_outside (inSwarm : member.swarm.isSome) : ¬ member.swarm.isNone := by
  simpa using Option.isSome_iff_ne_none.mp inSwarm

/-- Nothing stood against placing what was placed. -/
theorem objection?_of_placed {service : Service} {suffix : String} {index : Nat} {nodes : List Node}
    {turn turnAfter : RoundRobin} {supply : Supply} {placed : List Placed}
    (wanted : service.spec.desiredTasks nodes.length = .ok placed.length)
    (all : PlacedFrom nodes service suffix placed.length index turn supply placed turnAfter) :
    service.spec.objection? nodes = none := by
  obtain ⟨length, few⟩ := ServiceSpec.desiredTasks_eq_ok wanted
  rw [ServiceSpec.objection?]
  by_cases everywhere : service.spec.isGlobal
  · simp [everywhere]
  · rw [if_neg everywhere] at length
    rw [if_neg fun many => Nat.not_le_of_lt many.2 (few (by simpa using everywhere)), if_neg]
    rintro ⟨noNodes, _, some⟩
    obtain ⟨node, there, _⟩ := all.at_offset 0 (length ▸ some)
    simp [List.isEmpty_iff.mp noNodes] at there

/-- On some nodes only too many replicas stand against placing. -/
theorem objection?_of_hasNodes {nodes : List Node} (hasNodes : nodes ≠ []) :
    spec.objection? nodes =
      if ¬ spec.isGlobal ∧ ServiceSpec.maxReplicas < spec.replicas then
        some (ServiceSpec.tooManyReplicas spec.replicas)
      else none := by
  simp [ServiceSpec.objection?, hasNodes]

/-! ## Creating -/

/-- A name is taken if it was given and another service has it. -/
theorem exists_nameFor_iff (unused : spec.name = "" → member.DrawsUnusedName) :
    (∃ other ∈ member.services, other.spec.name = member.nameFor spec) ↔
      spec.name ≠ "" ∧ ∃ other ∈ member.services, other.spec.name = spec.name := by
  by_cases empty : spec.name = ""
  · have drawn : member.nameFor spec = member.supply.next.id := by simp [nameFor, empty]
    rw [drawn]
    constructor
    · rintro ⟨other, present, same⟩
      exact absurd same (unused empty other present)
    · rintro ⟨given, _⟩
      exact absurd empty given
  · have given : member.nameFor spec = spec.name := by simp [nameFor, empty]
    rw [given]
    exact ⟨fun taken => ⟨empty, taken⟩, And.right⟩

/-- If the name is free, placing decides. -/
theorem creationFailure?_of_free (inSwarm : member.swarm.isSome) (hasNodes : member.nodes ≠ [])
    (free : ∀ other ∈ member.services, other.spec.name ≠ member.nameFor spec)
    (unused : spec.name = "" → member.DrawsUnusedName) :
    member.creationFailure? spec = spec.objection? member.nodes := by
  have untaken := mt (exists_nameFor_iff unused).mpr fun ⟨other, present, same⟩ =>
    free other present same
  rw [creationFailure?, if_neg (not_outside inSwarm),
    if_neg (by simpa using hasNodes), if_neg untaken, objection?_of_hasNodes hasNodes]

theorem CreationRefused.failure (refused : member.CreationRefused spec error)
    (unused : spec.name = "" → member.DrawsUnusedName) :
    member.creationFailure? spec = some error := by
  cases refused with
  | outside outside => simp [creationFailure?, outside]
  | noNodes inSwarm noNodes =>
    simp [creationFailure?, not_outside inSwarm, noNodes]
  | taken inSwarm hasNodes taken =>
    have both := (exists_nameFor_iff unused).mp taken
    have name : member.nameFor spec = spec.name := by simp [nameFor, both.1]
    rw [creationFailure?, if_neg (not_outside inSwarm),
      if_neg (by simpa using hasNodes), if_pos both, name]
  | unplaced inSwarm hasNodes free objection =>
    rw [creationFailure?_of_free inSwarm hasNodes free unused, objection]

theorem Created.failure {named : Nat} {service : Service} {placed : List Placed}
    {turn : RoundRobin} (created : member.Created spec named service placed turn)
    (unused : spec.name = "" → member.DrawsUnusedName) : member.creationFailure? spec = none := by
  have objection := objection?_of_placed created.wanted created.all_placed
  have free := created.name_free
  rw [created.service_eq] at objection free
  exact (creationFailure?_of_free created.inSwarm created.hasNodes free unused).trans objection

/-! ## Updating -/

theorem find?_of_locateService {place : Fin member.services.length}
    (located : member.locateService asked = .ok place) :
    (member.services.find? fun service => service.answersTo asked) =
      some (member.services.get place) := by
  rw [List.find?_eq_map_findFinIdx?_getElem]
  rw [locateService] at located
  split at located
  next first => rw [first, Except.ok.inj located]; rfl
  next => cases located

theorem replacing_of_locateService {place : Fin member.services.length}
    (located : member.locateService asked = .ok place) (service : Service) :
    member.replacing asked service = member.services.set place service := by
  have first : (member.services.findFinIdx? fun other => other.answersTo asked) = some place := by
    rw [locateService] at located
    split at located
    next found => rw [found, Except.ok.inj located]
    next => cases located
  have found : (member.services.findIdx? fun other => other.answersTo asked) = some place.val := by
    rw [List.findIdx?_eq_map_findFinIdx?_val, first]
    rfl
  rw [replacing, (List.findIdx?_eq_some_iff_findIdx_eq.mp found).2]

theorem find?_of_locateService_error (missing : member.locateService asked = .error error) :
    (member.services.find? fun service => service.answersTo asked) = none ∧
      .serviceNotFound asked = error := by
  rw [List.find?_eq_map_findFinIdx?_getElem]
  rw [locateService] at missing
  split at missing
  next => cases missing
  next none => exact ⟨by rw [none]; rfl, Except.error.inj missing⟩

section NamedApart

variable (apart : member.NamedApart) {place : Fin member.services.length}
include apart

/-- A name is taken if it was given and is that of another service than the one found: of
the name that is kept there is no other. -/
theorem exists_nameKept_iff :
    (∃ other ∈ member.services.eraseIdx place,
        other.spec.name = nameKept (member.services.get place) spec) ↔
      spec.name ≠ "" ∧ ∃ other ∈ member.services,
        other ≠ member.services.get place ∧ other.spec.name = spec.name := by
  have others := eraseIdx_key apart.nodup place
  have inServices := List.get_mem member.services place
  rw [others]
  simp only [List.mem_filter, bne_iff_ne]
  by_cases empty : spec.name = ""
  · have kept : nameKept (member.services.get place) spec =
        (member.services.get place).spec.name := by simp [nameKept, empty]
    rw [kept]
    constructor
    · rintro ⟨other, ⟨_, different⟩, same⟩
      exact absurd same different
    · rintro ⟨given, _⟩
      exact absurd empty given
  · have given : nameKept (member.services.get place) spec = spec.name := by
      simp [nameKept, empty]
    rw [given]
    constructor
    · rintro ⟨other, ⟨present, different⟩, same⟩
      exact ⟨empty, other, present, fun equal => different (equal ▸ rfl), same⟩
    · rintro ⟨_, other, present, different, same⟩
      refine ⟨other, ⟨present, fun equal => different ?_⟩, same⟩
      exact List.inj_on_of_nodup_map apart.nodup present inServices equal

/-- If the name is free, placing decides. -/
theorem updateFailure?_of_free (inSwarm : member.swarm.isSome)
    (located : member.locateService asked = .ok place)
    (free : ∀ other ∈ member.services.eraseIdx place,
      other.spec.name ≠ nameKept (member.services.get place) spec) :
    member.updateFailure? asked spec = spec.objection? member.nodes := by
  have untaken := mt (exists_nameKept_iff apart).mpr fun ⟨other, present, same⟩ =>
    free other present same
  rw [updateFailure?, if_neg (not_outside inSwarm),
    find?_of_locateService located]
  exact if_neg untaken

omit place in
theorem UpdateRefused.failure (refused : member.UpdateRefused asked spec error) :
    member.updateFailure? asked spec = some error := by
  cases refused with
  | outside outside => simp [updateFailure?, outside]
  | missing inSwarm missing =>
    obtain ⟨none, rfl⟩ := find?_of_locateService_error missing
    rw [updateFailure?, if_neg (not_outside inSwarm), none]
  | @taken place inSwarm located taken =>
    have both := (exists_nameKept_iff apart).mp taken
    have name : nameKept (member.services.get place) spec = spec.name := by
      simp [nameKept, both.1]
    rw [updateFailure?, if_neg (not_outside inSwarm),
      find?_of_locateService located, name]
    exact if_pos both
  | unplaced inSwarm located free objection =>
    rw [updateFailure?_of_free apart inSwarm located free, objection]

theorem Updated.failure {service : Service} {placed : List Placed} {turn : RoundRobin}
    (updated : member.Updated asked spec place service placed turn) :
    member.updateFailure? asked spec = none := by
  have objection := objection?_of_placed updated.wanted updated.all_placed
  have free := updated.name_free
  rw [updated.service_eq] at objection free
  exact (updateFailure?_of_free apart updated.inSwarm updated.located free).trans objection

end NamedApart

/-- An update without a name conflicts with no other name. -/
theorem updateFailure?_ne_nameConflict (empty : spec.name = "") (name : String) :
    member.updateFailure? asked spec ≠ some (.nameConflict name) := by
  intro conflict
  rw [updateFailure?] at conflict
  split at conflict
  · cases conflict
  split at conflict
  · cases conflict
  rw [if_neg fun given => given.1 empty] at conflict
  split at conflict
  · cases conflict
  split at conflict <;> cases conflict

end Member

/-- There is a node for every task if there is one for the first. -/
theorem placeFrom_isSome {nodes : List Node} {turn : RoundRobin} (found : (turn.next? nodes).isSome)
    (service : Service) (suffix : String) (count index : Nat) (supply : Supply) :
    (placeFrom nodes service suffix count index turn supply).isSome := by
  refine Option.isSome_iff_ne_none.mpr fun failed => ?_
  have noTurn : turn.next? nodes = none :=
    RoundRobin.next?_eq_none.mpr (placeFrom_eq_none.mp failed).1
  rw [noTurn] at found
  cases found

namespace World

variable {n : Nat} {world : World n} {index : Fin n}

/-- A request to a member failed with an error, if there is one, and took but draws from the
member, and otherwise it was answered with a service that was registered. -/
def EndsAs (world : World n) (index : Fin n) (failure? : Option Error)
    (registering : Service → List Service) (ended : Except Halt Answer × World n) : Prop :=
  match failure? with
  | some error => ended.1 = .error (.failed error) ∧
      ∃ count, ended.2.member index = (world.member index).drew count
  | none => ∃ service, ended.1 = .ok (.service service) ∧
      (ended.2.member index).services = registering service

/-- A request to create a service is refused or carried out. -/
theorem create_ends (world : World n) (index : Fin n) (spec : ServiceSpec) :
    let services := (world.member index).services
    let ended := world.step (perform index (.createService spec))
    (∃ error, (world.member index).CreationRefused spec error ∧
      world.EndsAs index (some error) (services ++ [·]) ended) ∨
    ∃ named service placed turn, (world.member index).Created spec named service placed turn ∧
      ended.1 = .ok (.service service) ∧
      (ended.2.member index).services = services ++ [service] := by
  rcases Member.run_createService (world.member index) spec with
    ⟨error, count, refused, run⟩ | ⟨named, service, placed, turn, created, run⟩
  · obtain ⟨outcome, left⟩ := step_act Answer.service run
    exact .inl ⟨error, refused, outcome, count, left⟩
  · obtain ⟨outcome, left⟩ := step_act Answer.service run
    exact .inr ⟨named, service, placed, turn, created, outcome, congrArg Member.services left⟩

/-- A request to update a service is refused or carried out. -/
theorem update_ends (world : World n) (index : Fin n) (asked : String) (spec : ServiceSpec) :
    let ended := world.step (perform index (.updateService asked spec))
    (∃ error, (world.member index).UpdateRefused asked spec error ∧
      world.EndsAs index (some error) ((world.member index).replacing asked) ended) ∨
    ∃ place service placed turn,
      (world.member index).Updated asked spec place service placed turn ∧
      ended.1 = .ok (.service service) ∧
      (ended.2.member index).services = (world.member index).replacing asked service := by
  rcases Member.run_updateService (world.member index) asked spec with
    ⟨error, count, refused, run⟩ | ⟨place, service, placed, turn, updated, run⟩
  · obtain ⟨outcome, left⟩ := step_act Answer.service run
    exact .inl ⟨error, refused, outcome, count, left⟩
  · obtain ⟨outcome, left⟩ := step_act Answer.service run
    refine .inr ⟨place, service, placed, turn, updated, outcome, ?_⟩
    rw [Member.replacing_of_locateService updated.located]
    exact congrArg Member.services left

theorem endsAs_create {spec : ServiceSpec}
    (unused : spec.name = "" → (world.member index).DrawsUnusedName) :
    world.EndsAs index ((world.member index).creationFailure? spec)
      ((world.member index).services ++ [·])
      (world.step (perform index (.createService spec))) := by
  rcases world.create_ends index spec with
    ⟨error, refused, ended⟩ | ⟨named, service, placed, turn, created, succeeded, registered⟩
  · rw [refused.failure unused]
    exact ended
  · rw [created.failure unused]
    exact ⟨service, succeeded, registered⟩

/-- A drawn name that a service has is refused. -/
theorem endsAs_create_guessed {spec : ServiceSpec} (inSwarm : (world.member index).swarm.isSome)
    (hasNodes : (world.member index).nodes ≠ []) (empty : spec.name = "")
    (guessed : ¬ (world.member index).DrawsUnusedName) :
    world.EndsAs index (some (.nameConflict (world.member index).supply.next.id))
      ((world.member index).services ++ [·])
      (world.step (perform index (.createService spec))) := by
  have drawn : (world.member index).nameFor spec = (world.member index).supply.next.id := by
    simp [Member.nameFor, empty]
  simp only [Member.DrawsUnusedName, not_forall, Decidable.not_not, ← drawn] at guessed
  obtain ⟨other, present, same⟩ := guessed
  rcases world.create_ends index spec with
    ⟨error, refused, ended⟩ | ⟨named, service, placed, turn, created, _⟩
  · cases refused with
    | outside outside => simp [outside] at inSwarm
    | noNodes _ noNodes => exact absurd noNodes hasNodes
    | taken => exact drawn ▸ ended
    | unplaced _ _ free => exact absurd same (free other present)
  · have name : service.spec.name = (world.member index).nameFor spec := by
      rw [created.service_eq]
      rfl
    exact absurd (same.trans name.symm) (created.name_free other present)

theorem endsAs_update {asked : String} {spec : ServiceSpec}
    (apart : (world.member index).NamedApart) :
    world.EndsAs index ((world.member index).updateFailure? asked spec)
      ((world.member index).replacing asked)
      (world.step (perform index (.updateService asked spec))) := by
  rcases world.update_ends index asked spec with
    ⟨error, refused, ended⟩ | ⟨place, service, placed, turn, updated, succeeded, registered⟩
  · rw [refused.failure apart]
    exact ended
  · rw [updated.failure apart]
    exact ⟨service, succeeded, registered⟩

/-- An update without a name registers a service of the name of the one that is found, in its
place. -/
theorem name_of_updated {asked : String} {spec : ServiceSpec} {service : Service}
    (empty : spec.name = "")
    (ended : (world.step (perform index (.updateService asked spec))).1 = .ok (.service service)) :
    ∃ found, ((world.member index).services.find? fun other => other.answersTo asked) = some found ∧
      service.id = found.id ∧ service.spec.name = found.spec.name ∧
      ((world.step (perform index (.updateService asked spec))).2.member index).services =
        (world.member index).replacing asked service := by
  rcases world.update_ends index asked spec with
    ⟨error, _, failed⟩ | ⟨place, revised, placed, turn, updated, succeeded, registered⟩
  · cases failed.1.symm.trans ended
  · cases succeeded.symm.trans ended
    refine ⟨_, Member.find?_of_locateService updated.located, ?_, ?_, registered⟩
    · rw [updated.service_eq]
      rfl
    · simp [updated.service_eq, empty, Service.revise]

end World

/-- **Services are refused exactly when a check fails.**  After every run of a member that was
just started, a request to create or update a service fails with the first of its checks that
fails, and succeeds if none does (`Member.creationFailure?`, `Member.updateFailure?`).  The
service that it is answered with is then registered, behind the others or in place of the one
that was asked for.  A service that is created without a name gets a drawn one, which is
refused only if a client gave it to another service.  An update without a name never conflicts
with another name and keeps the one of the service.

Nothing fails late: if a node is found for the first task then all are placed, and what
fails took but draws from the member. -/
theorem services_refused_exactly {n : Nat} (world : World n) (index : Fin n) (settings : Settings)
    (machine : Machine) (observer : Observer) (supply : Supply)
    (started : world.member index = .start settings machine observer supply)
    (requests : List (Fin n × Command)) :
    let reached := world.after requests
    let member := reached.member index
    let creating spec := reached.step (World.perform index (.createService spec))
    let updating asked spec := reached.step (World.perform index (.updateService asked spec))
    (∀ spec, (spec.name = "" → member.DrawsUnusedName) →
      reached.EndsAs index (member.creationFailure? spec) (member.services ++ [·])
        (creating spec)) ∧
    (∀ spec, spec.name = "" → ¬ member.DrawsUnusedName → member.swarm.isSome → member.nodes ≠ [] →
      reached.EndsAs index (some (.nameConflict member.supply.next.id)) (member.services ++ [·])
        (creating spec)) ∧
    (∀ asked spec, reached.EndsAs index (member.updateFailure? asked spec)
      (member.replacing asked) (updating asked spec)) ∧
    (∀ asked spec, spec.name = "" →
      (∀ name, (updating asked spec).1 ≠ .error (.failed (.nameConflict name))) ∧
      ∀ service, (updating asked spec).1 = .ok (.service service) →
        ∃ found, (member.services.find? fun other => other.answersTo asked) = some found ∧
          service.id = found.id ∧ service.spec.name = found.spec.name ∧
          ((updating asked spec).2.member index).services = member.replacing asked service) ∧
    ∀ turn : RoundRobin, (turn.next? member.nodes).isSome → ∀ service suffix count index supply,
      (placeFrom member.nodes service suffix count index turn supply).isSome := by
  intro reached member creating updating
  have apart : member.NamedApart := World.namedApart_after started requests
  refine ⟨fun spec unused => World.endsAs_create unused, ?_,
    fun asked spec => World.endsAs_update apart, ?_, fun turn found => placeFrom_isSome found⟩
  · intro spec empty guessed inSwarm hasNodes
    exact World.endsAs_create_guessed inSwarm hasNodes empty guessed
  · intro asked spec empty
    refine ⟨fun name failed => ?_, fun service ended => World.name_of_updated empty ended⟩
    have ends : reached.EndsAs index (member.updateFailure? asked spec)
        (member.replacing asked) (updating asked spec) := World.endsAs_update apart
    cases failure : member.updateFailure? asked spec with
    | none =>
      rw [failure] at ends
      obtain ⟨service, succeeded, _⟩ := ends
      cases failed.symm.trans succeeded
    | some error =>
      rw [failure] at ends
      cases failed.symm.trans ends.1
      exact Member.updateFailure?_ne_nameConflict empty name failure

/-- Without nodes nothing is created, and a service is updated if it wants no task; other checks
come first. -/
theorem services_refused_exactly_withoutNodes :
    let reached := World.twoMembers.after World.withoutNodes
    let member := reached.member 0
    let updating asked spec := reached.step (World.perform 0 (.updateService asked spec))
    let replicas count : ServiceSpec := { mode := some { replicated := some ⟨some count⟩ } }
    member.creationFailure? {} = some .noNodes ∧
      reached.EndsAs 0 (some .noNodes) (member.services ++ [·])
        (reached.step (World.perform 0 (.createService {}))) ∧
      reached.EndsAs 0 (some .noNodes) (member.replacing "web") (updating "web" {}) ∧
      reached.EndsAs 0 none (member.replacing "web") (updating "web" (replicas 0)) ∧
      reached.EndsAs 0 (some (ServiceSpec.tooManyReplicas 10001)) (member.replacing "web")
        (updating "web" (replicas 10001)) ∧
      reached.EndsAs 0 (some (.nameConflict "log")) (member.replacing "web")
        (updating "web" { name := "log" }) ∧
      reached.EndsAs 0 none (member.replacing "log")
        (updating "log" { name := "log", mode := some { global := some {} } }) := by
  intro reached member updating replicas
  obtain ⟨creates, _, updates, _⟩ :=
    services_refused_exactly World.twoMembers 0 {} default .listening (.tally 'a')
      (World.member_start _ _ _ _ _ 0) World.withoutNodes
  have unused : member.DrawsUnusedName := by
    rw [Member.DrawsUnusedName]
    decide +kernel
  have failure : member.creationFailure? {} = some .noNodes := by decide +kernel
  have ends : ∀ {asked spec failure?}, member.updateFailure? asked spec = failure? →
      reached.EndsAs 0 failure? (member.replacing asked) (updating asked spec) :=
    fun same => same ▸ updates _ _
  exact ⟨failure, failure ▸ creates {} fun _ => unused, ends (by decide +kernel),
    ends (by decide +kernel), ends (by decide +kernel), ends (by decide +kernel),
    ends (by decide +kernel)⟩

end SwarmManager
