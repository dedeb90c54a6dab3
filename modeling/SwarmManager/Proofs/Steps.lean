import SwarmManager.World.Command
import SwarmManager.Proofs.Exchange
import SwarmManager.Proofs.Services
import Mathlib.Data.List.Induction

/-!
# Steps of a world, as the services of a member see them

Most requests have nothing to do with services: whatever they do to any member
of the world, they leave its services, tasks and instances alone and at most take
draws (`SameServices`).  That holds of every request to another member, too.  So a
step is one of four things to the services of a member (`ServiceStep`), and a
property of services is kept by every run if it is kept by these four
(`after_induction`).
-/

namespace SwarmManager

set_option autoImplicit false

/-- Between two states of a member nothing happened to its services, and at most
draws were taken. -/
structure Member.SameServices (before after : Member) : Prop where
  services : after.services = before.services
  tasks : after.tasks = before.tasks
  turn : after.turn = before.turn
  instances : after.instances = before.instances
  observer : after.observer = before.observer
  observed : after.observed = before.observed
  supply : ∃ count, after.supply = before.supply.ahead count

namespace Member.SameServices

theorem refl (member : Member) : member.SameServices member :=
  ⟨rfl, rfl, rfl, rfl, rfl, rfl, 0, rfl⟩

theorem trans {first second third : Member} (early : first.SameServices second)
    (late : second.SameServices third) : first.SameServices third := by
  obtain ⟨earlier, one⟩ := early.supply
  obtain ⟨later, two⟩ := late.supply
  exact ⟨late.services.trans early.services, late.tasks.trans early.tasks,
    late.turn.trans early.turn, late.instances.trans early.instances,
    late.observer.trans early.observer, late.observed.trans early.observed, earlier + later,
    by rw [two, one, Supply.ahead_ahead]⟩

/-- Draws are no matter for services. -/
theorem drew (member : Member) (count : Nat) : member.SameServices (member.drew count) :=
  ⟨rfl, rfl, rfl, rfl, rfl, rfl, count, rfl⟩

end Member.SameServices

namespace World

variable {n : Nat}

/-! ## Requests that are not about services -/

/-- Between two states of a world nothing happened to the services of any
member. -/
def SameServices (before after : World n) : Prop :=
  ∀ index, (before.member index).SameServices (after.member index)

theorem SameServices.refl (world : World n) : SameServices world world :=
  fun index => .refl (world.member index)

theorem SameServices.trans (first second third : World n) (early : SameServices first second)
    (late : SameServices second third) : SameServices first third :=
  fun index => (early index).trans (late index)

/-- A change of one member that is no matter for its services. -/
theorem SameServices.setMember (world : World n) (index : Fin n) {member : Member}
    (same : (world.member index).SameServices member) :
    SameServices world (world.setMember index member) := by
  intro probe
  rw [member_setMember]
  split
  next here => exact here ▸ same
  next => exact .refl _

theorem overlooks_sameServices :
    Overlooks (SameServices (n := n)) (fun _ => True) where
  refl := SameServices.refl
  trans := SameServices.trans
  network world _ _ := SameServices.refl world
  registry world index _ _ :=
    SameServices.setMember world index ⟨rfl, rfl, rfl, rfl, rfl, rfl, 0, rfl⟩

namespace SameServices

/-- A change of one member within an action. -/
theorem keeps_change (index : Fin n) {update : Member → Member}
    (same : ∀ member : Member, member.SameServices (update member)) :
    Keeps SameServices (change index update : Action n Unit) :=
  fun world => .setMember world index (same (world.member index))

/-- A change of the network within an action. -/
theorem keeps_network (update : World n → Network n) :
    Keeps SameServices
      (modify fun world => { world with network := update world } : Action n PUnit) :=
  fun world => SameServices.refl world

theorem keeps_draw (index : Fin n) : Keeps SameServices (act index Member.draw : Action n Draw) :=
  fun world => by
    rw [run_act]
    exact .setMember world index (.drew (world.member index) 1)

theorem keeps_openEndpoint (index : Fin n) (port : Option UInt16) :
    Keeps SameServices (openEndpoint index port : Action n Endpoint) := by
  intro world
  simp only [openEndpoint, run_bind, run_get, run_found]
  cases world.network.listen (world.member index).settings.peerHost port (.member index) with
  | error error => exact SameServices.refl world
  | ok opened => exact SameServices.refl world

theorem keeps_startNode (index : Fin n) (listen advertise : String) (isLeader : Bool) :
    Keeps SameServices (startNode index listen advertise isLeader : Action n (Endpoint × Node)) :=
  .bind SameServices.trans (keeps_openEndpoint index _) fun _ =>
    .bind SameServices.trans (keeps_look overlooks_sameServices index) fun _ =>
      .bind SameServices.trans (keeps_draw index) fun _ => keeps_pure overlooks_sameServices _

/-- Entering a swarm takes the three draws of its identity. -/
theorem keeps_enter (index : Fin n) (endpoint : Endpoint) (nodeId : String) (nodes : List Node) :
    Keeps SameServices (enter index endpoint nodeId nodes) :=
  keeps_change index fun _ => ⟨rfl, rfl, rfl, rfl, rfl, rfl, 3, rfl⟩

theorem keeps_ensureOutside (index : Fin n) :
    Keeps SameServices (ensureOutside index : Action n Unit) := by
  refine .bind SameServices.trans (keeps_look overlooks_sameServices index) fun looked => ?_
  split
  · exact keeps_fail overlooks_sameServices _
  · exact keeps_pure overlooks_sameServices _

theorem keeps_initCluster (index : Fin n) (listen advertise : String) :
    Keeps SameServices (initCluster index listen advertise) :=
  .bind SameServices.trans (keeps_ensureOutside index) fun _ =>
    .bind SameServices.trans (keeps_startNode index listen advertise true) fun started =>
      .bind SameServices.trans (keeps_look overlooks_sameServices index) fun _ =>
        .bind SameServices.trans (keeps_enter index started.1 started.2.id _) fun _ =>
          keeps_pure overlooks_sameServices _

theorem keeps_askToAdd (index : Fin n) (remote : String) (endpoint : Endpoint) (node : Node) :
    Keeps SameServices (askToAdd index remote endpoint node) := by
  refine .tryCatch SameServices.trans ?_ fun halt => ?_
  · exact keeps_send overlooks_sameServices (fun _ _ => trivial) remote _ _
  · cases halt with
    | failed error =>
      exact .bind SameServices.trans (keeps_network _) fun _ => keeps_fail overlooks_sameServices _
    | stalled => exact keeps_throw overlooks_sameServices _

theorem keeps_joinCluster (index : Fin n) (remotes : List String) (listen advertise : String) :
    Keeps SameServices (joinCluster index remotes listen advertise) := by
  refine .bind SameServices.trans (keeps_ensureOutside index) fun _ => ?_
  cases remotes with
  | nil => exact keeps_fail overlooks_sameServices _
  | cons remote rest =>
    exact .bind SameServices.trans (keeps_startNode index listen advertise false) fun started =>
      .bind SameServices.trans (keeps_askToAdd index remote started.1 started.2) fun nodes =>
        keeps_enter index started.1 started.2.id nodes

theorem keeps_leaveCluster (index : Fin n) : Keeps SameServices (leaveCluster index) := by
  refine .bind SameServices.trans (keeps_look overlooks_sameServices index) fun looked => ?_
  refine .bind SameServices.trans (keeps_found overlooks_sameServices _) fun _ => ?_
  have left : Keeps SameServices (change index fun member =>
      { member with swarm := none, nodeId := none, nodes := [], listener := none } :
        Action n Unit) :=
    keeps_change index fun _ => ⟨rfl, rfl, rfl, rfl, rfl, rfl, 0, rfl⟩
  split
  · exact .bind SameServices.trans (keeps_network _) fun _ => left
  · exact left

theorem keeps_spread (index : Fin n) (operation : NodeOperation) :
    Keeps SameServices (spread index operation) :=
  .bind SameServices.trans (keeps_look overlooks_sameServices index) fun looked =>
    .bind SameServices.trans
      (keeps_announce overlooks_sameServices (fun _ _ => trivial) operation looked.nodeId
        looked.nodes)
      fun _ => .bind SameServices.trans (keeps_receive overlooks_sameServices trivial operation)
        fun _ => keeps_pure overlooks_sameServices _

theorem keeps_updateNode (index : Fin n) (id : String) (spec : NodeSpec) :
    Keeps SameServices (updateNode index id spec) :=
  .bind SameServices.trans (keeps_look overlooks_sameServices index) fun _ =>
    .bind SameServices.trans (keeps_found overlooks_sameServices _) fun node =>
      .bind SameServices.trans (keeps_draw index) fun drawn =>
        .bind SameServices.trans (keeps_spread index (.update (node.withSpec spec drawn.instant)))
          fun _ => keeps_pure overlooks_sameServices _

theorem keeps_deleteNode (index : Fin n) (id : String) :
    Keeps SameServices (deleteNode index id) :=
  .bind SameServices.trans (keeps_look overlooks_sameServices index) fun _ =>
    .bind SameServices.trans (keeps_found overlooks_sameServices _) fun node =>
      keeps_spread index (.delete node)

end SameServices

end World

/-- Whether a request is about services and may place or remove tasks. -/
def Command.schedules : Command → Bool
  | .createService _ | .updateService _ _ | .deleteService _ => true
  | _ => false

/-- Every other request leaves the services of all members alone. -/
theorem World.SameServices.keeps_perform {n : Nat} (index : Fin n) {command : Command}
    (quiet : command.schedules = false) : Keeps SameServices (perform index command) := by
  have overlooks := overlooks_sameServices (n := n)
  cases command with
  | createService | updateService | deleteService =>
    exact absurd quiet (by simp [Command.schedules])
  | initCluster listen advertise =>
    exact keeps_answer overlooks (keeps_initCluster index listen advertise) _
  | joinCluster remotes listen advertise =>
    exact keeps_answer overlooks (keeps_joinCluster index remotes listen advertise) _
  | leaveCluster => exact keeps_answer overlooks (keeps_leaveCluster index) _
  | updateNode id spec => exact keeps_answer overlooks (keeps_updateNode index id spec) _
  | deleteNode id => exact keeps_answer overlooks (keeps_deleteNode index id) _
  | handleOperation operation delivery =>
    exact keeps_answer overlooks
      (keeps_handle overlooks (fun _ _ => trivial) trivial operation delivery) _
  | inspectSwarm => exact keeps_lookUp overlooks index Member.inspectSwarm _
  | inspectNode id => exact keeps_lookUp overlooks index (Member.inspectNode · id) _
  | listNodes => exact keeps_lookUp overlooks index Member.listNodes _
  | inspectService asked => exact keeps_lookUp overlooks index (Member.inspectService · asked) _
  | listServices filters => exact keeps_lookUp overlooks index (Member.listServices · filters) _
  | inspectTask id => exact keeps_lookUp overlooks index (Member.inspectTask · id) _
  | listTasks filters => exact keeps_lookUp overlooks index (Member.listTasks · filters) _
  | inspectInstance asked => exact keeps_lookUp overlooks index (Member.inspectInstance · asked) _
  | nodeId => exact keeps_answer overlooks (keeps_look overlooks index) _
  | peerAddress => exact keeps_answer overlooks (keeps_look overlooks index) _
  | listInstances => exact keeps_answer overlooks (keeps_look overlooks index) _

/-! ## Requests about services -/

/-- The service that a request gave a spec to, seen from how the request ended. -/
def Command.settled? : Command → Except Halt Answer → Option Service
  | .createService _, .ok (.service service) => some service
  | .updateService _ _, .ok (.service service) => some service
  | _, _ => none

/-- The service that a request gave another spec to, seen from how the request
ended. -/
def Command.revised? : Command → Except Halt Answer → Option Service
  | .updateService _ _, .ok (.service service) => some service
  | _, _ => none

/-- What the service was asked for that a request removed, seen from how the request ended. -/
def Command.removed? : Command → Except Halt Answer → Option String
  | .deleteService asked, .ok _ => some asked
  | _, _ => none

/-- What a request to a member does to its services: nothing, or one of three
things if it is about services and succeeds. -/
inductive ServiceStep (before : Member) : Command → Except Halt Answer → Member → Prop
  | kept {command : Command} {outcome : Except Halt Answer} {after : Member}
      (same : before.SameServices after) (unsettled : command.settled? outcome = none)
      (unremoved : command.removed? outcome = none) : ServiceStep before command outcome after
  | created {spec : ServiceSpec} {named : Nat} {service : Service} {placed : List Placed}
      {turn : RoundRobin} (created : before.Created spec named service placed turn) :
      ServiceStep before (.createService spec) (.ok (.service service))
        (before.afterCreating named service placed turn)
  | updated {asked : String} {spec : ServiceSpec} {place : Fin before.services.length}
      {service : Service} {placed : List Placed} {turn : RoundRobin}
      (updated : before.Updated asked spec place service placed turn) :
      ServiceStep before (.updateService asked spec) (.ok (.service service))
        (before.afterUpdating place service placed turn)
  | deleted {asked : String} {place : Fin before.services.length} (inSwarm : before.swarm.isSome)
      (located : before.locateService asked = .ok place) :
      ServiceStep before (.deleteService asked) (.ok .done) (before.afterDeleting place)

/-- A request that schedules nothing gives no service a spec. -/
theorem Command.settled?_eq_none {command : Command} (quiet : command.schedules = false)
    (outcome : Except Halt Answer) : command.settled? outcome = none := by
  cases command with
  | createService | updateService | deleteService => exact absurd quiet (by simp [schedules])
  | _ => rfl

/-- A request that schedules nothing removes no service. -/
theorem Command.removed?_eq_none {command : Command} (quiet : command.schedules = false)
    (outcome : Except Halt Answer) : command.removed? outcome = none := by
  cases command with
  | createService | updateService | deleteService => exact absurd quiet (by simp [schedules])
  | _ => rfl

namespace World

variable {n : Nat}

/-- A request to a member does to its services what `ServiceStep` says. -/
theorem serviceStep_perform (world : World n) (index : Fin n) (command : Command) :
    ServiceStep (world.member index) command ((perform index command).run.run world).1
      (((perform index command).run.run world).2.member index) := by
  cases quiet : command.schedules with
  | false =>
    exact .kept (SameServices.keeps_perform index quiet world index)
      (command.settled?_eq_none quiet _) (command.removed?_eq_none quiet _)
  | true =>
    cases command with
    | createService spec =>
      simp only [perform, run_bind, run_act]
      rcases Member.run_createService (world.member index) spec with
        ⟨error, count, _, run⟩ | ⟨named, service, placed, turn, created, run⟩
      · simp only [run, Except.mapError, member_setMember, ↓reduceIte]
        exact .kept (.drew _ count) rfl rfl
      · simp only [run, Except.mapError, run_pure, member_setMember, ↓reduceIte]
        exact .created created
    | updateService asked spec =>
      simp only [perform, run_bind, run_act]
      rcases Member.run_updateService (world.member index) asked spec with
        ⟨error, count, _, run⟩ | ⟨place, service, placed, turn, updated, run⟩
      · simp only [run, Except.mapError, member_setMember, ↓reduceIte]
        exact .kept (.drew _ count) rfl rfl
      · simp only [run, Except.mapError, run_pure, member_setMember, ↓reduceIte]
        exact .updated updated
    | deleteService asked =>
      simp only [perform, run_bind, run_act]
      rcases Member.run_deleteService (world.member index) asked with
        ⟨error, run⟩ | ⟨place, inSwarm, located, run⟩
      · simp only [run, Except.mapError, member_setMember, ↓reduceIte]
        exact .kept (.refl _) rfl rfl
      · simp only [run, Except.mapError, run_pure, member_setMember, ↓reduceIte]
        exact .deleted inSwarm located
    | _ => exact absurd quiet (by simp [Command.schedules])

/-- What a member does by itself changes no other member. -/
theorem member_run_act {α β : Type} (world : World n) {index probe : Fin n} (apart : probe ≠ index)
    (action : Member.Action α) (shown : α → β) :
    (((do return shown (← act index action) : Action n β).run.run world).2.member probe) =
      world.member probe := by
  simp only [run_bind, run_act]
  rcases action.run.run (world.member index) with ⟨error | value, after⟩ <;>
    simp only [Except.mapError, run_pure, member_setMember, apart, ↓reduceIte]

/-- A request to one member leaves the services of every other alone. -/
theorem sameServices_perform (world : World n) {index probe : Fin n} (apart : probe ≠ index)
    (command : Command) :
    (world.member probe).SameServices
      (((perform index command).run.run world).2.member probe) := by
  cases quiet : command.schedules with
  | false => exact SameServices.keeps_perform index quiet world probe
  | true =>
    have same : ((perform index command).run.run world).2.member probe = world.member probe := by
      cases command with
      | createService spec => exact member_run_act world apart _ _
      | updateService asked spec => exact member_run_act world apart _ _
      | deleteService asked => exact member_run_act world apart _ fun _ => Answer.done
      | _ => exact absurd quiet (by simp [Command.schedules])
    rw [same]
    exact .refl _

/-! ## Requests that one member handles by itself -/

/-- A request that only looks is answered with what is seen. -/
theorem outcome_view {α : Type} (world : World n) (index : Fin n)
    (view : Member → Except Error α) (shown : α → Answer) :
    (world.step (do return shown (← found (view (← look index))) : Action n Answer)).1 =
      ((view (world.member index)).map shown).mapError Halt.failed := by
  simp only [step, run_bind, run_look, run_found]
  cases view (world.member index) <;> rfl

/-- What a member does by itself ends for the world as it ends for the member. -/
theorem step_act {α β : Type} {world : World n} {index : Fin n} {action : Member.Action α}
    (shown : α → β) {result : Except Error α} {after : Member}
    (run : action.run.run (world.member index) = (result, after)) :
    let ended := world.step (do return shown (← act index action))
    ended.1 = (result.map shown).mapError Halt.failed ∧ ended.2.member index = after := by
  simp only [step, run_bind, run_act, run]
  cases result <;> exact ⟨rfl, (member_setMember world index index after).trans (if_pos rfl)⟩

/-! ## Runs -/

/-- The members of a world are not affected when the network settles. -/
theorem member_step {α : Type} (world : World n) (action : Action n α) (index : Fin n) :
    (world.step action).2.member index = (action.run.run world).2.member index := rfl

theorem after_append (world : World n) (requests : List (Fin n × Command))
    (request : Fin n × Command) :
    world.after (requests ++ [request]) =
      ((world.after requests).step (perform request.1 request.2)).2 := by
  simp only [after, List.foldl_append, List.foldl_cons, List.foldl_nil]

/-- What holds of a member at the start of a run and is kept by every step holds at
its end, where a step to another member leaves its services alone. -/
theorem after_induction {world : World n} {index : Fin n}
    {motive : List (Fin n × Command) → Member → Prop} (start : motive [] (world.member index))
    (elsewhere : ∀ requests request after, request.1 ≠ index →
      ((world.after requests).member index).SameServices after →
      motive requests ((world.after requests).member index) → motive (requests ++ [request]) after)
    (here : ∀ requests command after,
      ServiceStep ((world.after requests).member index) command
        ((world.after requests).step (perform index command)).1 after →
      motive requests ((world.after requests).member index) →
      motive (requests ++ [(index, command)]) after)
    (requests : List (Fin n × Command)) :
    motive requests ((world.after requests).member index) := by
  induction requests using List.reverseRecOn with
  | nil => exact start
  | append_singleton requests request ih =>
    rw [after_append, member_step]
    obtain ⟨target, command⟩ := request
    by_cases same : target = index
    · subst same
      exact here requests command _ (serviceStep_perform _ target command) ih
    · exact elsewhere requests _ _ same (sameServices_perform _ (Ne.symm same) command) ih

end World

end SwarmManager
