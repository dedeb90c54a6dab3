import SwarmManager.Proofs.Designation
import SwarmManager.Proofs.TaskSets
import SwarmManager.Text.Split

/-!
# Names

An instance is named after its service, with the index of its task and, if an update
started it, an ending.  Clients may name services as they like, also like the instances of
other services, and still no two instances share a name: the name of an instance tells the
name of its service and the index (`instanceName_inj`), services have names of their own
(`Member.NamedApart`), and the tasks of a service are told apart by their index.

Generated identifiers have no dash, and every name of an instance has one.  So whatever is
asked for, at most one instance answers to it (`names_tell_apart`).
-/

namespace SwarmManager

set_option autoImplicit false

/-! ## What a name tells -/

/-- A generated identifier: thirty-two hexadecimal digits in lower case. -/
def IsGenerated (id : String) : Prop :=
  id.length = 32 ∧ ∀ character ∈ id.toList, character ∈ "0123456789abcdef".toList

instance (id : String) : Decidable (IsGenerated id) := inferInstanceAs (Decidable (_ ∧ _))

theorem IsGenerated.ne_empty {id : String} (generated : IsGenerated id) : id ≠ "" := by
  rintro rfl
  exact absurd generated.1 (by decide)

theorem IsGenerated.dash_notMem {id : String} (generated : IsGenerated id) : '-' ∉ id.toList :=
  fun dash => absurd (generated.2 '-' dash) (by decide)

/-- What a suffix adds to the name of an instance behind the index. -/
theorem toList_instanceName (service : Service) (index : Nat) (suffix : String) :
    (instanceName service index suffix).toList =
      service.spec.name.toList ++ '-' :: (Decimal.digits index ++ suffix.toList) := by
  simp only [instanceName, Decimal.text, String.toList_append, String.toList_ofList,
    List.append_assoc]
  rfl

theorem dash_mem_instanceName (service : Service) (index : Nat) (suffix : String) :
    '-' ∈ (instanceName service index suffix).toList := by
  rw [toList_instanceName]
  exact List.mem_append_right _ List.mem_cons_self

/-- Behind the last dash of the name of an instance stands the index, or the word that an
update adds. -/
theorem splitLast_instanceName (service : Service) (index updates : Nat) :
    Text.splitLast '-' (instanceName service index (suffixAfter updates)).toList =
      if updates = 0 then some (service.spec.name.toList, Decimal.digits index)
      else some (service.spec.name.toList ++ '-' :: Decimal.digits index, "updated".toList) := by
  rw [toList_instanceName, suffixAfter]
  split
  · rw [String.toList_empty, List.append_nil,
      Text.splitLast_append (Decimal.notMem_digits rfl index)]
  · have parted : service.spec.name.toList ++
        '-' :: (Decimal.digits index ++ Member.updatedSuffix.toList) =
          (service.spec.name.toList ++ '-' :: Decimal.digits index) ++ '-' :: "updated".toList := by
      rw [List.append_assoc]
      rfl
    rw [parted, Text.splitLast_append (by decide)]

/-- A numeral is not the word that an update adds. -/
theorem digits_ne_updated (number : Nat) : Decimal.digits number ≠ "updated".toList := by
  intro same
  have digits := Decimal.all_isDigit_digits number
  rw [same] at digits
  exact absurd digits (by decide)

/-- The name of an instance tells the name of its service and the index of its task. -/
theorem instanceName_inj {service other : Service} {index place updates revisions : Nat}
    (same : instanceName service index (suffixAfter updates) =
      instanceName other place (suffixAfter revisions)) :
    service.spec.name = other.spec.name ∧ index = place := by
  have cut := congrArg (fun name : String => Text.splitLast '-' name.toList) same
  simp only [splitLast_instanceName] at cut
  have parts : service.spec.name.toList = other.spec.name.toList ∧
      Decimal.digits index = Decimal.digits place := by
    split at cut <;> split at cut <;> obtain ⟨front, back⟩ := Prod.mk.inj (Option.some.inj cut)
    · exact ⟨front, back⟩
    · exact absurd back (digits_ne_updated index)
    · exact absurd back.symm (digits_ne_updated place)
    · exact Text.append_last_inj (Decimal.notMem_digits rfl index)
        (Decimal.notMem_digits rfl place) front
  exact ⟨String.toList_inj.mp parts.1, Decimal.digits_inj parts.2⟩

namespace Member

variable {member : Member}

/-! ## Names of services -/

/-- Services have names of their own, none of which is empty unless an empty identifier was
handed out. -/
structure NamedApart (member : Member) : Prop where
  empty_used : ∀ service ∈ member.services, service.spec.name = "" → member.supply.Used ""
  nodup : (member.services.map fun service => service.spec.name).Nodup

namespace NamedApart

theorem start (settings : Settings) (machine : Machine) (observer : Observer) (supply : Supply) :
    (Member.start settings machine observer supply).NamedApart where
  empty_used _ none := absurd none List.not_mem_nil
  nodup := List.nodup_nil

theorem sameServices (apart : member.NamedApart) {after : Member}
    (same : member.SameServices after) : after.NamedApart where
  empty_used service registered empty := by
    obtain ⟨count, drawn⟩ := same.supply
    rw [same.services] at registered
    exact drawn ▸ (apart.empty_used service registered empty).ahead count
  nodup := same.services ▸ apart.nodup

/-- A service is created under a name that no other has. -/
theorem afterCreating (apart : member.NamedApart) {spec : ServiceSpec} {named : Nat}
    {service : Service} {placed : List Placed} {turn : RoundRobin}
    (created : member.Created spec named service placed turn) :
    (member.afterCreating named service placed turn).NamedApart := by
  refine ⟨?_, ?_⟩
  · intro other registered empty
    rw [supply_afterCreating]
    rcases List.mem_append.mp registered with old | new
    · exact (apart.empty_used other old empty).ahead _
    · -- Only a drawn name can be empty, and a draw has been handed out.
      rw [List.mem_singleton.mp new, created.service_eq] at empty
      simp only [Service.create] at empty
      split at empty
      next =>
        have drawn : (member.supply.ahead 0).next.id = "" := empty
        exact drawn ▸ Supply.used_next_ahead member.supply (by omega)
      next given => exact absurd (String.isEmpty_iff.mpr empty) given
  · change ((member.services ++ [service]).map _).Nodup
    rw [List.map_append, List.nodup_append]
    refine ⟨apart.nodup, List.nodup_singleton _, ?_⟩
    rintro name old _ new rfl
    obtain ⟨other, registered, rfl⟩ := List.mem_map.mp old
    exact created.name_free other registered (List.mem_singleton.mp new)

/-- A service is given no name that another has, and none that is empty. -/
theorem afterUpdating (apart : member.NamedApart) {asked : String} {spec : ServiceSpec}
    {place : Fin member.services.length} {service : Service} {placed : List Placed}
    {turn : RoundRobin} (updated : member.Updated asked spec place service placed turn) :
    (member.afterUpdating place service placed turn).NamedApart := by
  refine ⟨?_, ?_⟩
  · intro other registered empty
    rw [supply_afterUpdating]
    refine Supply.Used.ahead ?_ _
    rcases List.mem_or_eq_of_mem_set registered with old | rfl
    · exact apart.empty_used other old empty
    · rw [updated.service_eq] at empty
      simp only [Service.revise] at empty
      split at empty
      next => exact apart.empty_used _ (List.get_mem member.services place) empty
      next given => exact absurd (String.isEmpty_iff.mpr empty) given
  · have perm := (List.set_perm_cons_eraseIdx place.isLt service).map
      fun other : Service => other.spec.name
    refine perm.nodup_iff.mpr (List.nodup_cons.mpr ⟨?_, ?_⟩)
    · intro taken
      obtain ⟨other, registered, same⟩ := List.mem_map.mp taken
      exact updated.name_free other registered same
    · exact apart.nodup.sublist ((List.eraseIdx_sublist _ _).map _)

theorem afterDeleting (apart : member.NamedApart) (place : Fin member.services.length) :
    (member.afterDeleting place).NamedApart := by
  have perm := perm_fillGap member.services place.isLt
  have sub : (member.services.eraseIdx place).Sublist member.services := List.eraseIdx_sublist _ _
  refine ⟨?_, ?_⟩
  · intro service registered
    exact apart.empty_used service (sub.subset (perm.mem_iff.mp registered))
  · exact (perm.map _).nodup_iff.mpr (apart.nodup.sublist (sub.map _))

/-- What a step does to services, it keeps their names apart. -/
theorem step (apart : member.NamedApart) {command : Command} {outcome : Except Halt Answer}
    {after : Member} (step : ServiceStep member command outcome after) : after.NamedApart := by
  cases step with
  | kept same => exact apart.sameServices same
  | created created => exact apart.afterCreating created
  | updated updated => exact apart.afterUpdating updated
  | deleted => exact apart.afterDeleting _

end NamedApart

end Member

/-- In every run of a member that was just started, services have names of their own. -/
theorem World.namedApart_after {n : Nat} {world : World n} {index : Fin n} {settings : Settings}
    {machine : Machine} {observer : Observer} {supply : Supply}
    (started : world.member index = .start settings machine observer supply)
    (requests : List (Fin n × Command)) : ((world.after requests).member index).NamedApart := by
  refine World.after_induction (motive := fun _ member => member.NamedApart) ?_ ?_ ?_ requests
  · exact started ▸ .start settings machine observer supply
  · intro _ _ _ _ same apart
    exact apart.sameServices same
  · intro _ _ _ step apart
    exact apart.step step

/-! ## Names of instances -/

/-- Of the pairs of a service, each stands in its block and is named after its index there. -/
theorem Block.exists_index {service : Service} {suffix : String} {nodeCount : Nat}
    {pairs before block after : List Placed}
    (stands : Block service suffix nodeCount pairs before block after) {pair : Placed}
    (present : pair ∈ pairs) (owned : pair.task.serviceId = service.id) :
    ∃ index, block[index]? = some pair ∧ pair.process.name = instanceName service index suffix := by
  have inside : pair ∈ block := by
    rw [stands.pairs_eq] at present
    rcases List.mem_append.mp present with early | late
    · rcases List.mem_append.mp early with first | inside
      · exact absurd owned (stands.others pair (List.mem_append_left _ first))
      · exact inside
    · exact absurd owned (stands.others pair (List.mem_append_right _ late))
  obtain ⟨index, found⟩ := List.mem_iff_getElem?.mp inside
  obtain ⟨node, supply, fits⟩ := stands.fits index pair found
  exact ⟨index, found, by rw [fits]; rfl⟩

namespace Member.Tended

variable {member : Member} {updates : String → Nat} {nodeCount : String → Option Nat}
  {pairs : List Placed}

/-- Every pair belongs to a service, in whose block it stands. -/
theorem exists_owner (tended : member.Tended updates nodeCount pairs) {pair : Placed}
    (present : pair ∈ pairs) :
    ∃ service ∈ member.services, pair.task.serviceId = service.id ∧
      ∃ count before block after,
        Block service (suffixAfter (updates service.id)) count pairs before block after := by
  obtain ⟨service, registered, owner⟩ := List.mem_map.mp (tended.whole.sound.owned pair present)
  obtain ⟨_, count, before, block, after, _, stands⟩ := tended.settled service registered
  exact ⟨service, registered, owner.symm, count, before, block, after, stands⟩

/-- If services have names of their own, no two instances share one. -/
theorem pair_eq_of_name (tended : member.Tended updates nodeCount pairs)
    (apart : member.NamedApart) {one two : Placed} (first : one ∈ pairs) (second : two ∈ pairs)
    (same : one.process.name = two.process.name) : one = two := by
  obtain ⟨service, registered, owned, count, before, block, after, stands⟩ :=
    tended.exists_owner first
  obtain ⟨other, listed, owns, _, _, _, _, otherStands⟩ := tended.exists_owner second
  obtain ⟨index, there, named⟩ := stands.exists_index first owned
  obtain ⟨place, _, called⟩ := otherStands.exists_index second owns
  rw [named, called] at same
  obtain rfl : service = other :=
    List.inj_on_of_nodup_map apart.nodup registered listed (instanceName_inj same).1
  obtain ⟨position, here, titled⟩ := stands.exists_index second owns
  rw [← called, titled] at same
  rw [(instanceName_inj same).2, here] at there
  exact (Option.some.inj there).symm

theorem nodup_names (tended : member.Tended updates nodeCount pairs)
    (apart : member.NamedApart) :
    (member.instances.toList.map ProcessInstance.name).Nodup := by
  rw [tended.whole.paired.instances_eq, List.map_map]
  refine List.Nodup.map_on ?_ (tended.whole.sound.processes_nodup.of_map _)
  intro one first two second same
  exact tended.pair_eq_of_name apart first second same

/-- The name of every instance has a dash. -/
theorem dash_mem_name (tended : member.Tended updates nodeCount pairs)
    {process : ProcessInstance} (registered : process ∈ member.instances.toList) :
    '-' ∈ process.name.toList := by
  rw [tended.whole.paired.instances_eq] at registered
  obtain ⟨pair, present, rfl⟩ := List.mem_map.mp registered
  obtain ⟨service, _, owned, _, _, _, _, stands⟩ := tended.exists_owner present
  obtain ⟨index, _, named⟩ := stands.exists_index present owned
  rw [named]
  exact dash_mem_instanceName service index _

theorem process_used (tended : member.Tended updates nodeCount pairs)
    {process : ProcessInstance} (registered : process ∈ member.instances.toList) :
    member.supply.Used process.id := by
  rw [tended.whole.paired.instances_eq] at registered
  obtain ⟨pair, present, rfl⟩ := List.mem_map.mp registered
  exact tended.whole.sound.processes_used pair present

end Member.Tended

/-! ## Finding -/

/-- An item that alone fits is found. -/
theorem find?_eq_some_of_only {α : Type} {items : List α} {fits : α → Bool} {item : α}
    (present : item ∈ items) (suits : fits item = true)
    (only : ∀ other ∈ items, fits other = true → other = item) :
    items.find? fits = some item := by
  cases found : items.find? fits with
  | none => exact absurd suits (List.find?_eq_none.mp found item present)
  | some other =>
    rw [only other (List.mem_of_find?_eq_some found) (List.find?_some found)]

/-- An instance that alone answers to a text is the one that is inspected. -/
theorem InstanceRegistry.get_eq_ok {registry : InstanceRegistry} {asked : String}
    {process : ProcessInstance} (present : process ∈ registry.toList)
    (answers : process.answersTo asked = true)
    (only : ∀ other ∈ registry.toList, other.answersTo asked = true → other = process) :
    registry.get asked = .ok process := by
  rw [get, find?_eq_some_of_only present answers only]

/-- In a swarm a task is found by its identifier, if tasks have identifiers of their own. -/
theorem Member.inspectTask_eq {member : Member} (inSwarm : member.swarm.isSome)
    (nodup : (member.tasks.map Task.id).Nodup) (asked : String) :
    (∀ task ∈ member.tasks, task.id = asked → member.inspectTask asked = .ok task) ∧
      ((∀ task ∈ member.tasks, asked ≠ task.id) →
        member.inspectTask asked = .error (.taskNotFound asked)) := by
  obtain ⟨swarm, inside⟩ := Option.isSome_iff_exists.mp inSwarm
  have inspected : member.inspectSwarm = .ok swarm := by rw [inspectSwarm, inside]
  simp only [inspectTask, inspected]
  constructor
  · rintro task registered rfl
    have found : (member.tasks.find? fun other => other.id == task.id) = some task := by
      refine find?_eq_some_of_only registered (beq_self_eq_true task.id) fun other listed same => ?_
      exact List.inj_on_of_nodup_map nodup listed registered (beq_iff_eq.mp same)
    rw [found]
    rfl
  · intro nobody
    have missing : (member.tasks.find? fun other => other.id == asked) = none := by
      refine List.find?_eq_none.mpr fun task registered same => ?_
      exact nobody task registered (beq_iff_eq.mp same).symm
    rw [missing]
    rfl

/-- **Instances and tasks are told apart and found.**  After every run of a member that was
just started, with draws that do not repeat and identifiers of hexadecimal digits, services
have names of their own, none of them empty; instances have names of their own, none of them
an identifier; and so each instance is inspected by its identifier and by its name, and in a
swarm each task by its identifier.  Whoever asks for anything else is told that it is not
found. -/
theorem names_tell_apart {n : Nat} (world : World n) (index : Fin n) (settings : Settings)
    (machine : Machine) (observer : Observer) (supply : Supply)
    (started : world.member index = .start settings machine observer supply)
    (distinct : supply.Distinct) (requests : List (Fin n × Command))
    (generated : ∀ id, ((world.after requests).member index).supply.Used id → IsGenerated id) :
    let member := (world.after requests).member index
    let instances := member.instances.toList
    ((∀ service ∈ member.services, service.spec.name ≠ "") ∧
      (member.services.map fun service => service.spec.name).Nodup) ∧
    ((instances.map ProcessInstance.name).Nodup ∧
      ∀ process ∈ instances, ∀ other ∈ instances, process.name ≠ other.id) ∧
    (∀ process ∈ instances, member.inspectInstance process.id = .ok process ∧
      member.inspectInstance process.name = .ok process) ∧
    (∀ asked, (∀ process ∈ instances, asked ≠ process.id ∧ asked ≠ process.name) →
      member.inspectInstance asked = .error (.instanceNotFound asked)) ∧
    (member.swarm.isSome →
      (∀ task ∈ member.tasks, member.inspectTask task.id = .ok task) ∧
      ∀ asked, (∀ task ∈ member.tasks, asked ≠ task.id) →
        member.inspectTask asked = .error (.taskNotFound asked)) := by
  intro member instances
  obtain ⟨pairs, tended⟩ := World.tended_after started distinct requests
  have apart := World.namedApart_after started requests
  have ids : (instances.map ProcessInstance.id).Nodup := tended.whole.instances_nodup
  have names : (instances.map ProcessInstance.name).Nodup := tended.nodup_names apart
  have name_ne_id : ∀ process ∈ instances, ∀ other ∈ instances, process.name ≠ other.id := by
    intro process registered other listed same
    have dash := tended.dash_mem_name registered
    rw [same] at dash
    exact (generated other.id (tended.process_used listed)).dash_notMem dash
  refine ⟨⟨?_, apart.nodup⟩, ⟨names, name_ne_id⟩, ?_, ?_, ?_⟩
  · intro service registered empty
    exact (generated "" (apart.empty_used service registered empty)).ne_empty rfl
  · intro process registered
    refine ⟨InstanceRegistry.get_eq_ok registered ?_ ?_,
      InstanceRegistry.get_eq_ok registered ?_ ?_⟩
    · simp [ProcessInstance.answersTo]
    · intro other listed answers
      simp only [ProcessInstance.answersTo, Bool.or_eq_true, beq_iff_eq] at answers
      rcases answers with sameId | sameName
      · exact List.inj_on_of_nodup_map ids listed registered sameId
      · exact absurd sameName (name_ne_id other listed process registered)
    · simp [ProcessInstance.answersTo]
    · intro other listed answers
      simp only [ProcessInstance.answersTo, Bool.or_eq_true, beq_iff_eq] at answers
      rcases answers with sameId | sameName
      · exact absurd sameId.symm (name_ne_id process registered other listed)
      · exact List.inj_on_of_nodup_map names listed registered sameName
  · intro asked nobody
    refine InstanceRegistry.get_eq_error.mpr fun process registered => ?_
    obtain ⟨notId, notName⟩ := nobody process registered
    simp [ProcessInstance.answersTo, Ne.symm notId, Ne.symm notName]
  · intro inSwarm
    have tasks : (member.tasks.map Task.id).Nodup := by
      rw [tended.whole.paired.tasks_eq, List.map_map]
      exact tended.whole.sound.tasks_nodup
    exact ⟨fun task registered => (Member.inspectTask_eq inSwarm tasks _).1 task registered rfl,
      fun asked => (Member.inspectTask_eq inSwarm tasks asked).2⟩

/-- What a member draws is given before a step. -/
theorem ServiceStep.source_eq {member after : Member} {command : Command}
    {outcome : Except Halt Answer} (step : ServiceStep member command outcome after) :
    after.supply.source = member.supply.source := by
  cases step with
  | kept same =>
    obtain ⟨count, drawn⟩ := same.supply
    rw [drawn]
    rfl
  | created =>
    rw [Member.supply_afterCreating]
    rfl
  | updated =>
    rw [Member.supply_afterUpdating]
    rfl
  | deleted => rfl

/-- What a member draws is given from the start. -/
theorem World.source_after {n : Nat} (world : World n) (index : Fin n)
    (requests : List (Fin n × Command)) :
    ((world.after requests).member index).supply.source =
      (world.member index).supply.source := by
  refine World.after_induction
    (motive := fun _ member => member.supply.source = (world.member index).supply.source)
    rfl ?_ ?_ requests
  · rintro _ _ after _ ⟨_, _, _, _, _, _, count, drawn⟩ source
    rw [drawn]
    exact source
  · intro _ _ _ step source
    exact step.source_eq.trans source

/-- The first identifiers of a supply that counts in strokes are of the form in which
identifiers are generated. -/
theorem isGenerated_strokes {position : Nat} (few : position < 32) :
    IsGenerated (Supply.strokes.source position).id := by
  refine ⟨?_, fun character written => ?_⟩
  · change (String.ofList _).length = 32
    rw [String.length_ofList, List.length_append, List.length_replicate, List.length_replicate]
    omega
  · change character ∈ (String.ofList _).toList at written
    rw [String.toList_ofList, List.mem_append, List.mem_replicate, List.mem_replicate] at written
    rcases written with ⟨_, rfl⟩ | ⟨_, rfl⟩ <;> decide

/-- Services named like instances of others. -/
theorem names_tell_apart_namedAlike :
    let member := (World.countingMembers.after World.namedAlike).member 0
    member.instances.toList.map ProcessInstance.name =
        ["00000000000000000000000000011111-0", "web-0-updated-0-updated", "web-0-0-updated"] ∧
      (member.instances.toList.map ProcessInstance.name).Nodup ∧
      ∀ process ∈ member.instances.toList,
        member.inspectInstance process.id = .ok process ∧
        member.inspectInstance process.name = .ok process := by
  have generated : ∀ id, ((World.countingMembers.after World.namedAlike).member 0).supply.Used id →
      IsGenerated id := by
    have drawn : ((World.countingMembers.after World.namedAlike).member 0).supply.drawn = 20 := by
      decide +kernel
    rintro id ⟨position, before, rfl⟩
    rw [World.source_after, World.countingMembers, World.member_start]
    exact isGenerated_strokes (by omega)
  obtain ⟨_, ⟨names, _⟩, found, _⟩ := names_tell_apart World.countingMembers 0 {} default .listening
    .strokes (World.member_start _ _ _ _ _ _) Supply.distinct_strokes World.namedAlike generated
  exact ⟨by decide +kernel, names, found⟩

end SwarmManager
