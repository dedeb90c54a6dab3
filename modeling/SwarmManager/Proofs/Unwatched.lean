import SwarmManager.Proofs.History
import SwarmManager.Proofs.Lifecycle

/-!
# What observers have no bearing on

A member tells its observer of the instances it starts, and never asks whether anybody listens.
So every request ends in the same way, and leads to the same world but for what observers were
told, whoever observes the members (`World.run_watchedBy`).

`Unaffected` says so of an action and is carried from the parts to the whole.  A part that looks
at a member must not look at its observer.
-/

namespace SwarmManager

set_option autoImplicit false

/-! ## What is forgotten of a state -/

section Unaffected

variable {σ ε α β : Type} {forget : σ → σ}

/-- What is forgotten of a state has no bearing on how an action ends, nor on what is remembered
of the state after it. -/
def Unaffected (forget : σ → σ) (action : ExceptT ε (StateM σ) α) : Prop :=
  ∀ state, (action.run.run (forget state)).1 = (action.run.run state).1 ∧
    forget (action.run.run (forget state)).2 = forget (action.run.run state).2

namespace Unaffected

/-- An unaffected action runs alike on states of which the same is remembered. -/
theorem alike {action : ExceptT ε (StateM σ) α} (unaffected : Unaffected forget action)
    {one two : σ} (same : forget one = forget two) :
    (action.run.run one).1 = (action.run.run two).1 ∧
      forget (action.run.run one).2 = forget (action.run.run two).2 := by
  obtain ⟨firstEnd, firstState⟩ := unaffected one
  obtain ⟨secondEnd, secondState⟩ := unaffected two
  rw [same] at firstEnd firstState
  exact ⟨firstEnd.symm.trans secondEnd, firstState.symm.trans secondState⟩

/-- What does not touch the state is unaffected if what it finds is. -/
theorem of_run {action : ExceptT ε (StateM σ) α} (idem : ∀ state, forget (forget state) = forget state)
    {result : σ → Except ε α} (run : ∀ state, action.run.run state = (result state, state))
    (same : ∀ state, result (forget state) = result state) : Unaffected forget action := by
  intro state
  rw [run, run]
  exact ⟨same state, idem state⟩

theorem bind {first : ExceptT ε (StateM σ) α} {second : α → ExceptT ε (StateM σ) β}
    (early : Unaffected forget first) (late : ∀ value, Unaffected forget (second value)) :
    Unaffected forget (first >>= second) := by
  intro state
  have step := early state
  rw [run_bind, run_bind]
  rcases blind : first.run.run (forget state) with ⟨outcome, next⟩
  rcases seeing : first.run.run state with ⟨otherEnd, other⟩
  rw [blind, seeing] at step
  obtain ⟨rfl, sameState⟩ := step
  cases outcome with
  | error failure => exact ⟨rfl, sameState⟩
  | ok value => exact (late value).alike sameState

theorem tryCatch {action : ExceptT ε (StateM σ) α} {handler : ε → ExceptT ε (StateM σ) α}
    (tried : Unaffected forget action) (handled : ∀ failure, Unaffected forget (handler failure)) :
    Unaffected forget (tryCatch action handler) := by
  intro state
  have step := tried state
  rw [run_tryCatch, run_tryCatch]
  rcases blind : action.run.run (forget state) with ⟨outcome, next⟩
  rcases seeing : action.run.run state with ⟨otherEnd, other⟩
  rw [blind, seeing] at step
  obtain ⟨rfl, sameState⟩ := step
  cases outcome with
  | error failure => exact (handled failure).alike sameState
  | ok value => exact ⟨rfl, sameState⟩

/-- An action may look at what is remembered. -/
theorem get {second : σ → ExceptT ε (StateM σ) α}
    (same : ∀ state, second (forget state) = second state)
    (late : ∀ state, Unaffected forget (second state)) :
    Unaffected forget (get >>= second) := by
  intro state
  rw [run_bind, run_bind, run_get, run_get]
  simp only [same]
  exact late state state

theorem modify {update : σ → σ}
    (same : ∀ state, forget (update (forget state)) = forget (update state)) :
    Unaffected forget (modify update : ExceptT ε (StateM σ) PUnit) :=
  fun state => ⟨rfl, same state⟩

end Unaffected

end Unaffected

/-! ## Members -/

namespace Member

/-- The member with another observer, who was told nothing yet. -/
def watchedBy (member : Member) (observer : Observer) : Member :=
  { member with observer := observer, observed := [] }

/-- The member as if nobody observed it. -/
def unwatched (member : Member) : Member := member.watchedBy .none

theorem unwatched_watchedBy (member : Member) (observer : Observer) :
    (member.watchedBy observer).unwatched = member.unwatched := rfl

theorem unwatched_register (member : Member) (placed : List Placed) :
    (member.register placed).unwatched = member.unwatched.register placed := by
  cases observer : member.observer <;> simp only [register, tell, observer] <;> rfl

/-! ### Services -/

theorem unaffected_pure {α : Type} (value : α) :
    Unaffected unwatched (pure value : Action α) := fun _ => ⟨rfl, rfl⟩

/-- What would follow a failure is no matter. -/
theorem unaffected_throw_bind {α β : Type} (error : Error) (second : α → Action β) :
    Unaffected unwatched (throw error >>= second) := fun _ => ⟨rfl, rfl⟩

theorem unaffected_found {α : Type} (result : Except Error α) :
    Unaffected unwatched (liftM result : Action α) := by
  intro member
  rw [run_liftM, run_liftM]
  exact ⟨rfl, rfl⟩

theorem unaffected_draw : Unaffected unwatched draw := fun _ => ⟨rfl, rfl⟩

theorem unaffected_place (service : Service) (suffix : String) :
    Unaffected unwatched (place service suffix) := by
  intro member
  simp only [place, run_bind, run_get, run_liftM]
  have same : placeTasks member.unwatched.nodes service suffix member.unwatched.turn
      member.unwatched.supply =
    placeTasks member.nodes service suffix member.turn member.supply := rfl
  rw [same]
  rcases placeTasks member.nodes service suffix member.turn member.supply with
    error | ⟨placed, turn, supply⟩
  · exact ⟨rfl, rfl⟩
  · exact ⟨rfl, rfl⟩

theorem unaffected_nameOrDrawn (spec : ServiceSpec) : Unaffected unwatched (nameOrDrawn spec) := by
  simp only [nameOrDrawn]
  split
  · exact unaffected_draw.bind fun _ => unaffected_pure _
  · exact unaffected_pure _

theorem unaffected_modify {update : Member → Member}
    (same : ∀ member, (update member.unwatched).unwatched = (update member).unwatched) :
    Unaffected unwatched (modify update : Action PUnit) := .modify same

theorem unaffected_register (placed : List Placed) :
    Unaffected unwatched (modify fun member => member.register placed : Action PUnit) := by
  refine unaffected_modify fun member => ?_
  rw [unwatched_register, unwatched_register]
  rfl

theorem unaffected_createService (spec : ServiceSpec) :
    Unaffected unwatched (createService spec) := by
  refine .get (fun _ => rfl) fun _ => (unaffected_found _).bind fun _ => ?_
  refine .get (fun _ => rfl) fun member => ?_
  split
  · exact unaffected_throw_bind _ _
  refine (unaffected_nameOrDrawn spec).bind fun name => .get (fun _ => rfl) fun member => ?_
  split
  · exact unaffected_throw_bind _ _
  exact unaffected_draw.bind fun _ => (unaffected_place _ "").bind fun placed =>
    (unaffected_register placed).bind fun _ => (unaffected_modify fun _ => rfl).bind fun _ =>
      unaffected_pure _

/-- Services are located whoever observes. -/
theorem locateService_unwatched (member : Member) (asked : String) :
    member.unwatched.locateService asked = member.locateService asked := by
  have same : (member.unwatched.services.findFinIdx? fun service => service.answersTo asked) =
      member.services.findFinIdx? fun service => service.answersTo asked := rfl
  cases found : member.services.findFinIdx? fun service => service.answersTo asked with
  | none =>
    rw [found] at same
    simp only [locateService, same, found]
    rfl
  | some place =>
    rw [found] at same
    simp only [locateService, same, found]
    rfl

theorem inspectService_unwatched (member : Member) (asked : String) :
    member.unwatched.inspectService asked = member.inspectService asked := by
  simp only [inspectService, locateService_unwatched]
  rfl

theorem selectTasks_unwatched (member : Member) (filters : Filters) (tasks : List Task) :
    member.unwatched.selectTasks filters tasks = member.selectTasks filters tasks := by
  induction tasks with
  | nil => rfl
  | cons task rest ih =>
    simp only [selectTasks, ih]
    rfl

theorem listTasks_unwatched (member : Member) (filters : Filters) :
    member.unwatched.listTasks filters = member.listTasks filters := by
  simp only [listTasks, selectTasks_unwatched]
  rfl

theorem unaffected_updateService (asked : String) (spec : ServiceSpec) :
    Unaffected unwatched (updateService asked spec) := by
  refine .get (fun member => by rw [locateService_unwatched]; rfl) fun member =>
    (unaffected_found _).bind fun _ => (unaffected_found _).bind fun index => ?_
  simp only []
  generalize (if spec.name.isEmpty then (member.services.get index).spec.name else spec.name) = name
  split
  · exact unaffected_throw_bind _ _
  exact unaffected_draw.bind fun _ => (unaffected_place _ _).bind fun placed =>
    (unaffected_modify fun _ => by rfl).bind fun _ => (unaffected_register placed).bind fun _ =>
      (unaffected_modify fun _ => by rfl).bind fun _ => unaffected_pure _

theorem unaffected_deleteService (asked : String) :
    Unaffected unwatched (deleteService asked) :=
  .get (fun member => by rw [locateService_unwatched]; rfl) fun _ =>
    (unaffected_found _).bind fun _ => (unaffected_found _).bind fun _ =>
      (unaffected_modify fun _ => rfl).bind fun _ => unaffected_modify fun _ => rfl

end Member

/-! ## Worlds -/

namespace World

variable {n : Nat}

/-- The world with other observers, who were told nothing yet. -/
def watchedBy (world : World n) (observers : Fin n → Observer) : World n :=
  { world with members := .ofFn fun index => (world.member index).watchedBy (observers index) }

/-- The world as if nobody observed its members. -/
def unwatched (world : World n) : World n := world.watchedBy fun _ => .none

@[simp] theorem member_watchedBy (world : World n) (observers : Fin n → Observer)
    (index : Fin n) :
    (world.watchedBy observers).member index = (world.member index).watchedBy (observers index) := by
  simp only [member, watchedBy, Fin.getElem_fin, Vector.getElem_ofFn, Fin.eta]

@[simp] theorem member_unwatched (world : World n) (index : Fin n) :
    world.unwatched.member index = (world.member index).unwatched :=
  member_watchedBy world _ index

/-- Worlds are the same if their members and networks are. -/
theorem ext_members {one two : World n} (members : ∀ index, one.member index = two.member index)
    (network : one.network = two.network) : one = two := by
  obtain ⟨first, _⟩ := one
  obtain ⟨second, _⟩ := two
  obtain rfl : first = second := Vector.ext fun position inside => members ⟨position, inside⟩
  obtain rfl := network
  rfl

theorem network_unwatched (world : World n) : world.unwatched.network = world.network := rfl

theorem unwatched_watchedBy (world : World n) (observers : Fin n → Observer) :
    (world.watchedBy observers).unwatched = world.unwatched := by
  refine ext_members (fun index => ?_) rfl
  rw [member_unwatched, member_watchedBy, member_unwatched, Member.unwatched_watchedBy]

theorem unwatched_unwatched (world : World n) : world.unwatched.unwatched = world.unwatched :=
  unwatched_watchedBy world _

/-- Whether a member is changed before or after its observer is forgotten is no matter. -/
theorem unwatched_setMember (world : World n) (index : Fin n) (member : Member) :
    (world.setMember index member).unwatched =
      world.unwatched.setMember index member.unwatched := by
  refine ext_members (fun probe => ?_) rfl
  simp only [member_unwatched, member_setMember]
  split <;> rfl

/-! ### Parts of actions -/

theorem unaffected_pure {α : Type} (value : α) : Unaffected unwatched (pure value : Action n α) :=
  .of_run unwatched_unwatched (run_pure value) fun _ => rfl

theorem unaffected_throw {α : Type} (halt : Halt) :
    Unaffected unwatched (throw halt : Action n α) :=
  .of_run unwatched_unwatched (run_throw halt) fun _ => rfl

theorem unaffected_found {α : Type} (result : Except Error α) :
    Unaffected unwatched (found result : Action n α) :=
  .of_run unwatched_unwatched (run_found result) fun _ => rfl

/-- An action may look at a member, if not at its observer. -/
theorem unaffected_look {α : Type} (index : Fin n) {second : Member → Action n α}
    (same : ∀ member : Member, second member.unwatched = second member)
    (late : ∀ member, Unaffected unwatched (second member)) :
    Unaffected unwatched (look index >>= second) := by
  intro world
  rw [run_bind, run_bind, run_look, run_look]
  simp only [member_unwatched, same]
  exact late (world.member index) world

/-- What is answered by looking at a member, if not at its observer. -/
theorem unaffected_lookUp {α β : Type} (index : Fin n) (view : Member → Except Error α)
    (same : ∀ member : Member, view member.unwatched = view member) (shown : α → β) :
    Unaffected unwatched (do return shown (← found (view (← look index))) : Action n β) :=
  unaffected_look index (fun member => by rw [same]) fun _ =>
    (unaffected_found _).bind fun _ => unaffected_pure _

theorem unaffected_change (index : Fin n) {update : Member → Member}
    (same : ∀ member, (update member.unwatched).unwatched = (update member).unwatched) :
    Unaffected unwatched (change index update : Action n Unit) := by
  intro world
  rw [run_change, run_change]
  refine ⟨rfl, ?_⟩
  rw [unwatched_setMember, unwatched_setMember, unwatched_unwatched, member_unwatched, same]

/-- What a member does by itself. -/
theorem unaffected_act {α : Type} (index : Fin n) {action : Member.Action α}
    (unaffected : Unaffected Member.unwatched action) :
    Unaffected unwatched (act index action : Action n α) := by
  intro world
  obtain ⟨sameEnd, sameMember⟩ := unaffected (world.member index)
  rw [run_act, run_act, member_unwatched, sameEnd]
  refine ⟨rfl, ?_⟩
  rw [unwatched_setMember, unwatched_setMember, unwatched_unwatched, sameMember]

/-- The network is not what observers see. -/
theorem unwatched_withNetwork (world : World n) (network : Network n) :
    ({ world.unwatched with network := network } : World n).unwatched =
      ({ world with network := network } : World n).unwatched := by
  refine ext_members (fun index => ?_) rfl
  change world.unwatched.unwatched.member index = world.unwatched.member index
  rw [unwatched_unwatched]

theorem unaffected_network {update : World n → Network n}
    (same : ∀ world : World n, update world.unwatched = update world) :
    Unaffected unwatched
      (modify fun world => { world with network := update world } : Action n PUnit) := by
  refine .modify fun world => ?_
  rw [same]
  exact unwatched_withNetwork world _

/-! ### Sending -/

theorem unaffected_meetFate : Unaffected unwatched (meetFate : Action n Fate) :=
  fun world => ⟨rfl, unwatched_withNetwork world _⟩

theorem unaffected_receive (index : Fin n) (operation : NodeOperation) :
    Unaffected unwatched (receive index operation) :=
  (unaffected_change index fun _ => rfl).bind fun _ =>
    unaffected_look index (fun _ => rfl) fun _ => unaffected_pure _

/-- Consulting an outsider is a matter of the network. -/
theorem unaffected_consult (peer : String) (outsider : Nat) (received : Received) :
    Unaffected unwatched (consult peer outsider received : Action n (List Node)) := by
  intro world
  simp only [consult, run_bind, run_get, network_unwatched]
  cases world.network.outsiders[outsider]? with
  | none => exact ⟨rfl, unwatched_unwatched world⟩
  | some scripted =>
    simp only [run_bind, run_set]
    refine Unaffected.alike ?_ (unwatched_withNetwork world _)
    cases (scripted.answer received).1 with
    | none => exact unaffected_throw _
    | some reply => exact unaffected_found _

theorem unaffected_relay {α : Type} (peer : String) {answer : Action n α}
    (unaffected : Unaffected unwatched answer) : Unaffected unwatched (relay peer answer) := by
  refine .tryCatch unaffected fun halt => ?_
  cases halt with
  | failed error => exact unaffected_throw _
  | stalled => exact unaffected_throw _

theorem unaffected_unseen {α : Type} (peer : String) {answer : Action n α}
    (unaffected : Unaffected unwatched answer) : Unaffected unwatched (unseen peer answer) := by
  refine .tryCatch (unaffected.bind fun _ => unaffected_throw _) fun halt => ?_
  cases halt with
  | failed error => exact unaffected_throw _
  | stalled => exact unaffected_throw _

section Sending

variable {serve : Serve n} (served : ∀ index asked, Unaffected unwatched (serve index asked))
include served

theorem unaffected_contact (waiting : Option (Fin n)) (peer : String) (delivery : Delivery)
    (operation : NodeOperation) :
    Unaffected unwatched (contact waiting serve peer delivery operation) := by
  refine .get (fun _ => by rw [network_unwatched]) fun world => ?_
  rcases world.network.reach peer with _ | ⟨index | outsider, target⟩
  · exact unaffected_throw _
  · simp only []
    cases Http.PeerEndpoint.accept "POST" (target.asking delivery) operation.isTooLong with
    | error response => exact unaffected_throw _
    | ok asked =>
      simp only []
      split
      · exact unaffected_throw _
      · exact unaffected_relay peer (served index asked)
  · exact unaffected_consult peer outsider _

theorem unaffected_exchange (waiting : Option (Fin n)) (peer : String) (delivery : Delivery)
    (operation : NodeOperation) :
    Unaffected unwatched (exchange waiting serve peer delivery operation) := by
  have carried := unaffected_contact served waiting peer delivery operation
  refine unaffected_meetFate.bind fun fate => ?_
  cases fate with
  | delivered => exact carried
  | requestLost => exact unaffected_throw _
  | replyLost => exact unaffected_unseen peer carried

end Sending

theorem unaffected_announce (waiting : Option (Fin n)) (operation : NodeOperation)
    (selfId : Option String) (nodes : List Node) :
    Unaffected unwatched (announce waiting operation selfId nodes) := by
  induction nodes with
  | nil => exact unaffected_pure _
  | cons node rest ih =>
    simp only [announce]
    split
    · split
      · exact ih
      · exact (unaffected_exchange (fun index _ => unaffected_receive index operation) _ _ _
          _).bind fun _ => ih
    · exact ih

theorem unaffected_handle (waiting : Option (Fin n)) (index : Fin n) (operation : NodeOperation)
    (delivery : Delivery) : Unaffected unwatched (handle waiting index operation delivery) := by
  have applied := unaffected_receive index operation
  simp only [handle]
  split
  · exact unaffected_look index (fun _ => rfl) fun member =>
      (unaffected_announce waiting operation member.nodeId member.nodes).bind fun _ => applied
  · exact applied

theorem unaffected_send (waiting : Option (Fin n)) (peer : String) (operation : NodeOperation)
    (delivery : Delivery) : Unaffected unwatched (send waiting peer operation delivery) :=
  unaffected_exchange (unaffected_handle waiting · operation) waiting peer delivery operation

/-! ### Swarms and nodes -/

theorem unaffected_openEndpoint (index : Fin n) (port : Option UInt16) :
    Unaffected unwatched (openEndpoint index port : Action n Endpoint) := by
  intro world
  have same : (world.unwatched.member index).settings = (world.member index).settings := by
    rw [member_unwatched]
    rfl
  simp only [openEndpoint, run_bind, run_get, run_found, same, network_unwatched]
  cases world.network.listen (world.member index).settings.peerHost port (.member index) with
  | error error => exact ⟨rfl, unwatched_unwatched world⟩
  | ok opened => exact ⟨rfl, unwatched_withNetwork world _⟩

theorem unaffected_startNode (index : Fin n) (listen advertise : String) (isLeader : Bool) :
    Unaffected unwatched (startNode index listen advertise isLeader) :=
  (unaffected_openEndpoint index _).bind fun _ => unaffected_look index (fun _ => rfl) fun _ =>
    (unaffected_act index Member.unaffected_draw).bind fun _ => unaffected_pure _

theorem unaffected_enter (index : Fin n) (endpoint : Endpoint) (nodeId : String)
    (nodes : List Node) : Unaffected unwatched (enter index endpoint nodeId nodes) :=
  unaffected_change index fun _ => rfl

theorem unaffected_ensureOutside (index : Fin n) :
    Unaffected unwatched (ensureOutside index : Action n Unit) := by
  refine unaffected_look index (fun _ => rfl) fun member => ?_
  split
  · exact unaffected_throw _
  · exact unaffected_pure _

theorem unaffected_initCluster (index : Fin n) (listen advertise : String) :
    Unaffected unwatched (initCluster index listen advertise) :=
  (unaffected_ensureOutside index).bind fun _ =>
    (unaffected_startNode index listen advertise true).bind fun started =>
      unaffected_look index (fun _ => rfl) fun _ =>
        (unaffected_enter index started.1 started.2.id _).bind fun _ => unaffected_pure _

theorem unaffected_askToAdd (index : Fin n) (remote : String) (endpoint : Endpoint)
    (node : Node) : Unaffected unwatched (askToAdd index remote endpoint node) := by
  refine .tryCatch (unaffected_send _ _ _ _) fun halt => ?_
  cases halt with
  | failed error =>
    refine Unaffected.bind ?_ fun _ => unaffected_throw _
    exact unaffected_network fun _ => rfl
  | stalled => exact unaffected_throw _

theorem unaffected_joinCluster (index : Fin n) (remotes : List String)
    (listen advertise : String) :
    Unaffected unwatched (joinCluster index remotes listen advertise) := by
  refine (unaffected_ensureOutside index).bind fun _ => ?_
  cases remotes with
  | nil => exact unaffected_throw _
  | cons remote rest =>
    exact (unaffected_startNode index listen advertise false).bind fun started =>
      (unaffected_askToAdd index remote started.1 started.2).bind fun nodes =>
        unaffected_enter index started.1 started.2.id nodes

theorem unaffected_leaveCluster (index : Fin n) : Unaffected unwatched (leaveCluster index) := by
  refine unaffected_look index (fun _ => rfl) fun member => (unaffected_found _).bind fun _ => ?_
  have left : Unaffected unwatched (change index fun member =>
      { member with swarm := none, nodeId := none, nodes := [], listener := none } :
        Action n Unit) :=
    unaffected_change index fun _ => rfl
  split
  · refine Unaffected.bind ?_ fun _ => left
    exact unaffected_network fun _ => rfl
  · exact left

theorem unaffected_spread (index : Fin n) (operation : NodeOperation) :
    Unaffected unwatched (spread index operation) :=
  unaffected_look index (fun _ => rfl) fun member =>
    (unaffected_announce _ operation member.nodeId member.nodes).bind fun _ =>
      (unaffected_receive index operation).bind fun _ => unaffected_pure _

theorem unaffected_updateNode (index : Fin n) (id : String) (spec : NodeSpec) :
    Unaffected unwatched (updateNode index id spec) :=
  unaffected_look index (fun _ => rfl) fun _ => (unaffected_found _).bind fun _ =>
    (unaffected_act index Member.unaffected_draw).bind fun _ =>
      (unaffected_spread index _).bind fun _ => unaffected_pure _

theorem unaffected_deleteNode (index : Fin n) (id : String) :
    Unaffected unwatched (deleteNode index id) :=
  unaffected_look index (fun _ => rfl) fun _ => (unaffected_found _).bind fun _ =>
    unaffected_spread index _

/-! ### Requests -/

/-- A request that is answered with what is found by looking at a member. -/
theorem unaffected_viewed {α : Type} (index : Fin n) {view : Member → α}
    (same : ∀ member : Member, view member.unwatched = view member) :
    Unaffected unwatched (do return view (← look index) : Action n α) :=
  unaffected_look index (fun member => by rw [same]) fun _ => unaffected_pure _

/-- What a request is answered with is no matter. -/
theorem unaffected_answer {α β : Type} {action : Action n α}
    (unaffected : Unaffected unwatched action) (shown : α → β) :
    Unaffected unwatched (do return shown (← action) : Action n β) :=
  unaffected.bind fun _ => unaffected_pure _

/-- Whoever observes, every request ends in the same way and does the same. -/
theorem unaffected_perform (index : Fin n) (command : Command) :
    Unaffected unwatched (perform index command) := by
  cases command with
  | initCluster listen advertise =>
    exact unaffected_answer (unaffected_initCluster index listen advertise) _
  | joinCluster remotes listen advertise =>
    exact unaffected_answer (unaffected_joinCluster index remotes listen advertise) _
  | leaveCluster => exact unaffected_answer (unaffected_leaveCluster index) _
  | updateNode id spec => exact unaffected_answer (unaffected_updateNode index id spec) _
  | deleteNode id => exact unaffected_answer (unaffected_deleteNode index id) _
  | handleOperation operation delivery =>
    exact unaffected_answer (unaffected_handle none index operation delivery) _
  | createService spec =>
    exact unaffected_answer (unaffected_act index (Member.unaffected_createService spec)) _
  | updateService asked spec =>
    exact unaffected_answer (unaffected_act index (Member.unaffected_updateService asked spec)) _
  | deleteService asked =>
    exact unaffected_answer (unaffected_act index (Member.unaffected_deleteService asked)) _
  | inspectSwarm => exact unaffected_lookUp index Member.inspectSwarm (fun _ => rfl) _
  | inspectNode id =>
    exact unaffected_lookUp index (Member.inspectNode · id) (fun _ => rfl) _
  | listNodes => exact unaffected_lookUp index Member.listNodes (fun _ => rfl) _
  | inspectService asked =>
    exact unaffected_lookUp index (Member.inspectService · asked)
      (Member.inspectService_unwatched · asked) _
  | listServices filters =>
    exact unaffected_lookUp index (Member.listServices · filters) (fun _ => rfl) _
  | inspectTask id =>
    exact unaffected_lookUp index (Member.inspectTask · id) (fun _ => rfl) _
  | listTasks filters =>
    exact unaffected_lookUp index (Member.listTasks · filters)
      (Member.listTasks_unwatched · filters) _
  | inspectInstance asked =>
    exact unaffected_lookUp index (Member.inspectInstance · asked) (fun _ => rfl) _
  | nodeId => exact unaffected_viewed index fun _ => rfl
  | peerAddress => exact unaffected_viewed index fun _ => rfl
  | listInstances => exact unaffected_viewed index fun _ => rfl

/-! ### Runs -/

/-- How the requests of a run end. -/
def outcomes (world : World n) (requests : List (Fin n × Command)) :
    List (Except Halt Answer) :=
  (world.history requests).map Event.outcome

/-- A step is the same from worlds that differ in observers only. -/
theorem step_alike {α : Type} {action : Action n α} (unaffected : Unaffected unwatched action)
    {one two : World n} (same : one.unwatched = two.unwatched) :
    (one.step action).1 = (two.step action).1 ∧
      (one.step action).2.unwatched = (two.step action).2.unwatched := by
  obtain ⟨sameEnd, sameNext⟩ := unaffected.alike same
  have settled : (action.run.run one).2.network.settle one.network =
      (action.run.run two).2.network.settle two.network := by
    rw [← network_unwatched (action.run.run one).2, sameNext, ← network_unwatched one, same]
    rfl
  refine ⟨sameEnd, ext_members (fun probe => ?_) settled⟩
  have seen := congrArg (fun world : World n => world.member probe) sameNext
  simp only [member_unwatched] at seen ⊢
  exact seen

/-- Whoever observes the members, a run ends its requests in the same way, and the world after
it is the same but for what observers were told. -/
theorem run_watchedBy (world : World n) (observers : Fin n → Observer)
    (requests : List (Fin n × Command)) :
    (world.watchedBy observers).outcomes requests = world.outcomes requests ∧
      ((world.watchedBy observers).after requests).unwatched =
        (world.after requests).unwatched := by
  have run : ∀ one two : World n, one.unwatched = two.unwatched →
      one.outcomes requests = two.outcomes requests ∧
        (one.after requests).unwatched = (two.after requests).unwatched := by
    induction requests with
    | nil => exact fun _ _ same => ⟨rfl, same⟩
    | cons request rest ih =>
      intro one two same
      obtain ⟨sameEnd, sameNext⟩ := step_alike (unaffected_perform request.1 request.2) same
      obtain ⟨outcomes, after⟩ := ih _ _ sameNext
      exact ⟨congrArg₂ List.cons sameEnd outcomes, after⟩
  exact run _ _ (unwatched_watchedBy world observers)

end World

end SwarmManager
