import SwarmManager.Proofs.Entries
import SwarmManager.Proofs.Membership

/-!
# The registry of a whole run

One member founds a swarm.  After that, members join through current members, current
members update and delete nodes, and members that are not current any more leave
(`Event.Permitted`).  If draws do not repeat, everything is delivered and members are
reached where they advertise, then a request fails because of a peer only if what it sends
is too long for peers to take, and after every run all current members hold the same
registry: it has one entry of each of them, which differs from the one it entered with only
in what users edit (`World.members_hold_one_registry`).

Peers do refuse what is too long, and members whose address asks for a delivery of its own
refuse everything (`World.peers_refuse_permitted_requests`).
-/

namespace SwarmManager

set_option autoImplicit false

variable {n : Nat}

/-! ## Permitted requests -/

/-- Whether a request has a member enter a swarm. -/
def Command.enters : Command → Bool
  | .initCluster _ _ | .joinCluster _ _ _ => true
  | _ => false

/-- Whether peers are told that a member is at an address: its own entry says so, or the
address reaches it anyway. -/
def World.IsPeerAddress (world : World n) (index : Fin n) (address : String) : Prop :=
  (∃ node ∈ (world.member index).ownNode?, node.peerAddress? = some address) ∨
    world.Reaches address index

instance (world : World n) (index : Fin n) (address : String) :
    Decidable (world.IsPeerAddress index address) :=
  inferInstanceAs (Decidable ((∃ node ∈ (world.member index).ownNode?, _) ∨ _))

namespace Event

/-- The world after the request. -/
def after (event : Event n) : World n :=
  (event.world.step (World.perform event.index event.command)).2

/-- The entry that a member has of itself once the request had it enter a swarm. -/
def entered? (event : Event n) : Option Node :=
  if event.command.enters then (event.after.member event.index).ownNode? else none

/-- A member that entered is reached where it advertises. -/
def Advertised (event : Event n) : Prop :=
  ∀ node ∈ event.entered?, event.after.Advertises node event.index

instance (event : Event n) : Decidable event.Advertised :=
  inferInstanceAs (Decidable (∀ node ∈ event.entered?, _))

/-- The operation that a request has a member send to others: what it announces, or, if it is
to join them, that they add it. -/
def sent? (event : Event n) : Option NodeOperation :=
  match event.command with
  | .joinCluster _ _ _ => event.offered?.map .add
  | command => command.announced? (event.world.member event.index)

/-- Members outside any swarm join through current members, current members update and
delete nodes, and members that are not current leave. -/
def Permitted (event : Event n) : Prop :=
  match event.command with
  | .joinCluster remotes _ _ =>
      (event.world.member event.index).swarm = none ∧
        ∃ through, event.world.Current through ∧
          ∃ remote ∈ remotes.head?, event.world.IsPeerAddress through remote
  | .updateNode _ _ | .deleteNode _ => event.world.Current event.index
  | .leaveCluster => ¬ event.world.Current event.index
  | _ => False

instance : (event : Event n) → Decidable event.Permitted
  | ⟨world, index, .joinCluster remotes _ _⟩ =>
      inferInstanceAs (Decidable ((world.member index).swarm = none ∧
        ∃ through, world.Current through ∧ ∃ remote ∈ remotes.head?, _))
  | ⟨world, index, .updateNode _ _⟩ | ⟨world, index, .deleteNode _⟩ =>
      inferInstanceAs (Decidable (world.Current index))
  | ⟨world, index, .leaveCluster⟩ => inferInstanceAs (Decidable (¬ world.Current index))
  | ⟨_, _, .initCluster _ _⟩ | ⟨_, _, .inspectSwarm⟩ | ⟨_, _, .nodeId⟩ | ⟨_, _, .peerAddress⟩
  | ⟨_, _, .inspectNode _⟩ | ⟨_, _, .listNodes⟩ | ⟨_, _, .handleOperation _ _⟩
  | ⟨_, _, .createService _⟩ | ⟨_, _, .updateService _ _⟩ | ⟨_, _, .deleteService _⟩
  | ⟨_, _, .inspectService _⟩ | ⟨_, _, .listServices _⟩ | ⟨_, _, .inspectTask _⟩
  | ⟨_, _, .listTasks _⟩ | ⟨_, _, .listInstances⟩ | ⟨_, _, .inspectInstance _⟩ =>
      inferInstanceAs (Decidable False)

end Event

namespace World

variable {world : World n} {order : List (Fin n)} {entry : Fin n → Node}
  {sent? : Option NodeOperation} {expected : Fin n → Node → Prop}

/-- The settling of the network after an action is no matter. -/
theorem Maintained.step {α : Type} {action : Action n α}
    (maintained : Maintained order entry sent? expected world (action.run.run world).1
      (action.run.run world).2) :
    Maintained order entry sent? expected world (world.step action).1 (world.step action).2 := by
  obtain ⟨order', entry', replicated, kept⟩ := maintained.replicated
  refine ⟨fun halt failed ofPeer => ?_, order', entry', replicated.settle world.network, kept⟩
  obtain ⟨tooLong, refused, nodes⟩ := maintained.faults halt failed ofPeer
  exact ⟨tooLong, refused, nodes⟩

theorem step_answer {α β : Type} (action : Action n α) (shown : α → β) :
    world.step (do return shown (← action)) =
      ((world.step action).1.map shown, (world.step action).2) := by
  simp only [World.step, run_answer]
  rfl

theorem Maintained.answer {α β : Type} {action : Action n α}
    (maintained : Maintained order entry sent? expected world (world.step action).1
      (world.step action).2) (shown : α → β) :
    Maintained order entry sent? expected world (world.step (do return shown (← action))).1
      (world.step (do return shown (← action))).2 := by
  rw [step_answer]
  refine ⟨fun halt failed => maintained.faults halt ?_, maintained.replicated⟩
  cases ended : (world.step action).1 with
  | error other =>
    rw [ended] at failed
    exact congrArg Except.error (Except.error.inj failed)
  | ok value =>
    rw [ended] at failed
    cases failed

theorem Maintained.weaken {α : Type} {weaker : Fin n → Node → Prop}
    {outcome : Except Halt α} {after : World n}
    (maintained : Maintained order entry sent? expected world outcome after)
    (weakens : ∀ index node, expected index node → weaker index node) :
    Maintained order entry sent? weaker world outcome after := by
  obtain ⟨order', entry', replicated, kept⟩ := maintained.replicated
  exact ⟨maintained.faults, order', entry', replicated,
    fun index among => (kept index among).imp_right (weakens index (entry' index))⟩

/-- The peer address of a current member reaches it. -/
theorem Replicated.reaches (replicated : world.Replicated order entry) {index : Fin n}
    (inside : index ∈ order) {address : String} (known : world.IsPeerAddress index address) :
    world.Reaches address index := by
  rcases known with ⟨node, own, listed⟩ | reached
  · rw [replicated.agreed.ownNode?_eq replicated.tidy inside] at own
    obtain ⟨there, advertised, reached⟩ := replicated.listening index inside
    rw [Option.some.inj own, listed] at advertised
    rw [Option.some.inj advertised]
    exact reached
  · exact reached

end World

/-- A permitted request keeps the registry replicated, and does not fail because of a peer
unless it sends what is too long.  The only new entry it may bring is that of the member that
entered. -/
theorem Event.maintained {event : Event n} {order : List (Fin n)} {entry : Fin n → Node}
    (replicated : event.world.Replicated order entry) (permitted : event.Permitted)
    (advertised : event.Advertised) :
    World.Maintained order entry event.sent?
      (fun other node => event.command.enters ∧ event.world.NewEntry event.index false other node)
      event.world event.outcome event.after := by
  obtain ⟨world, index, command⟩ := event
  have current := replicated.agreed.current_iff index
  cases command with
  | joinCluster remotes listen advertise =>
    obtain ⟨free, through, among, remote, first, known⟩ := permitted
    have inside := (replicated.agreed.current_iff through).mp among
    have outside : index ∉ order := by
      intro present
      have inSwarm := (current.mpr present).1
      rw [free] at inSwarm
      cases inSwarm
    have same : (world.step (World.perform index (.joinCluster remotes listen advertise))).2 =
        (world.step (World.joinCluster index remotes listen advertise)).2 :=
      congrArg Prod.snd (World.step_answer _ fun _ => Answer.done)
    have sends : ∀ endpoint network, world.listen index listen = .ok (endpoint, network) →
        (Event.mk world index (.joinCluster remotes listen advertise)).sent? =
          some (.add ((world.member index).asNode advertise endpoint false)) := by
      intro endpoint network listened
      simp [Event.sent?, Event.offered?, free, listened, Except.toOption]
    have joined := replicated.joinCluster outside first inside (replicated.reaches inside known)
      listen advertise sends (same ▸ advertised)
    exact (joined.weaken fun _ _ new => ⟨rfl, new⟩).answer fun _ => Answer.done
  | updateNode id spec =>
    exact (replicated.updateNode (current.mp permitted) id spec _).step.answer Answer.node
  | deleteNode id =>
    exact (replicated.deleteNode (current.mp permitted) id _).step.answer fun _ => Answer.done
  | leaveCluster =>
    have outside : index ∉ order := fun inside => permitted (current.mpr inside)
    exact (replicated.leaveCluster outside _ _).step.answer fun _ => Answer.done
  | _ => exact absurd permitted id

/-- Permitted requests have nothing to do with services. -/
theorem Event.Permitted.schedules_eq {event : Event n} (permitted : event.Permitted) :
    event.command.schedules = false := by
  obtain ⟨world, index, command⟩ := event
  cases command with
  | createService | updateService | deleteService => exact absurd permitted id
  | _ => rfl

namespace World

/-! ## Runs -/

/-- What holds after a run from its founding on: entries are those that members entered
with, only the one of the founder leads, and its identifier is used up. -/
structure Founded (world : World n) (events : List (Event n)) (leader? : Option String)
    (order : List (Fin n)) (entry : Fin n → Node) : Prop where
  replicated : world.Replicated order entry
  origin : ∀ index ∈ order, ∃ event ∈ events, event.index = index ∧
    ∃ joined, event.entered? = some joined ∧ (entry index).SameMember joined
  leads : ∀ index ∈ order, (entry index).isLeader = true ↔ leader? = some (entry index).id
  used : ∀ id, leader? = some id → ∃ index, (world.member index).supply.Used id
  faults : ∀ event ∈ events, ∀ halt, event.outcome = .error halt → halt.isOfPeer = true →
    RefusedForLength event.sent? halt event.world event.after

/-- A permitted request leaves all of it as it is. -/
theorem Founded.step {event : Event n} {events : List (Event n)} {leader? : Option String}
    {order : List (Fin n)} {entry : Fin n → Node}
    (founded : event.world.Founded events leader? order entry) (permitted : event.Permitted)
    (advertised : event.Advertised) :
    ∃ order' entry', event.after.Founded (events ++ [event]) leader? order' entry' := by
  obtain ⟨faults, order', entry', replicated, kept⟩ :=
    event.maintained founded.replicated permitted advertised
  refine ⟨order', entry', replicated, ?_, ?_, ?_, ?_⟩
  · intro index among
    rcases kept index among with ⟨before, same⟩ | ⟨enters, new⟩
    · obtain ⟨earlier, past, here, joined, entered, since⟩ := founded.origin index before
      exact ⟨earlier, List.mem_append_left _ past, here, joined, entered, same.trans since⟩
    · refine ⟨event, List.mem_append_right _ (List.mem_singleton_self event), new.index_eq.symm,
        entry' index, ?_, .refl _⟩
      rw [Event.entered?, if_pos enters, ← new.index_eq]
      exact replicated.agreed.ownNode?_eq replicated.tidy among
  · intro index among
    rcases kept index among with ⟨before, same⟩ | ⟨_, new⟩
    · rw [same.isLeader_eq, same.id_eq]
      exact founded.leads index before
    · -- Nobody enters with the identifier of the founder, which was drawn before.
      refine iff_of_false (by simp [new.isLeader_eq]) fun same => ?_
      obtain ⟨holder, used⟩ := founded.used _ same
      exact founded.replicated.tidy.next_ne used new.id_eq.symm
  · intro id same
    obtain ⟨holder, used⟩ := founded.used id same
    obtain ⟨count, supply⟩ :=
      (SameServices.keeps_perform event.index permitted.schedules_eq event.world holder).supply
    refine ⟨holder, ?_⟩
    rw [Event.after, member_step, supply]
    exact used.ahead count
  · intro other past halt failed
    rcases List.mem_append.mp past with earlier | last
    · exact founded.faults other earlier halt failed
    · rw [List.mem_singleton.mp last] at failed ⊢
      exact faults halt failed

/-- A founder that succeeds lists itself. -/
theorem entered?_of_founding {founding : Event n} {listen advertise : String}
    (command_eq : founding.command = .initCluster listen advertise)
    (empty : (founding.world.member founding.index).nodes = []) {answer : Answer}
    (succeeded : founding.outcome = .ok answer) : ∃ founder, founding.entered? = some founder := by
  obtain ⟨world, founder, command⟩ := founding
  obtain rfl : command = .initCluster listen advertise := command_eq
  have known : ((world.member founder).drew 1).nodes = [] := empty
  simp only [Event.outcome, perform, step_answer] at succeeded
  simp only [Event.entered?, Event.after, perform, step_answer, Command.enters, ↓reduceIte]
  simp only [step, run_initCluster] at succeeded ⊢
  split at succeeded
  · cases succeeded
  next outside =>
    split at succeeded
    · cases succeeded
    next endpoint network listened =>
      simp only [if_neg outside, known, member_withNetwork, member_setMember_self]
      exact ⟨_, Member.ownNode?_entered fun _ listed => absurd listed List.not_mem_nil⟩

section Start

variable {settings : Fin n → Settings} {machine : Fin n → Machine} {observer : Fin n → Observer}
  {supply : Fin n → Supply} {network : Network n}

theorem nodes_of_start {world : World n}
    (world_eq : world = start settings machine observer supply network) (index : Fin n) :
    (world.member index).nodes = [] := by
  rw [world_eq, member_start]
  rfl

/-- Before anything has happened nobody is current. -/
theorem replicated_start (apart : Supply.Apart supply) (delivered : network.fates.AllDelivered)
    (entry : Fin n → Node) :
    (start settings machine observer supply network).Replicated [] entry where
  agreed := by
    refine ⟨List.nodup_nil, fun index => iff_of_false ?_ List.not_mem_nil, nofun, nofun⟩
    rintro ⟨inSwarm, _⟩
    rw [member_start] at inSwarm
    cases inSwarm
  tidy := by
    refine ⟨delivered, ?_, ?_, ?_, ?_⟩
    · simp only [member_start]
      exact apart
    · intro index id named
      rw [member_start] at named
      cases named
    · intro index endpoint listens
      rw [member_start] at listens
      cases listens
    · intro index endpoint listens
      rw [member_start] at listens
      cases listens
  listening := nofun

/-- The request that founds the swarm makes the founder the leader. -/
theorem founded_initCluster (apart : Supply.Apart supply) (delivered : network.fates.AllDelivered)
    {founding : Event n}
    (world_eq : founding.world = start settings machine observer supply network)
    {listen advertise : String} (command_eq : founding.command = .initCluster listen advertise)
    (advertised : founding.Advertised) :
    ∃ order entry,
      founding.after.Founded [founding] (founding.entered?.map Node.id) order entry := by
  obtain ⟨world, founder, command⟩ := founding
  obtain rfl : command = .initCluster listen advertise := command_eq
  have replicatedStart :
      world.Replicated [] fun index => (world.member index).asNode "" default true := by
    rw [show world = _ from world_eq]
    exact replicated_start apart delivered _
  have same : (world.step (perform founder (.initCluster listen advertise))).2 =
      (world.step (World.initCluster founder listen advertise)).2 :=
    congrArg Prod.snd (step_answer _ Answer.identifier)
  obtain ⟨faults, order, entry, replicated, kept⟩ :=
    (replicatedStart.initCluster (nodes_of_start world_eq founder) listen advertise
      (same ▸ advertised)).answer Answer.identifier
  have entered : ∀ index ∈ order, index = founder ∧ (entry index).isLeader = true ∧
      (Event.mk world founder (.initCluster listen advertise)).entered? = some (entry index) := by
    intro index among
    have new := (kept index among).resolve_left fun old => List.not_mem_nil old.1
    obtain rfl := new.index_eq
    exact ⟨rfl, new.isLeader_eq, replicated.agreed.ownNode?_eq replicated.tidy among⟩
  refine ⟨order, entry, replicated, ?_, ?_, ?_, ?_⟩
  · intro index among
    obtain ⟨here, _, own⟩ := entered index among
    exact ⟨_, List.mem_singleton_self _, here.symm, entry index, own, .refl _⟩
  · intro index among
    obtain ⟨_, leads, own⟩ := entered index among
    exact iff_of_true leads (congrArg (Option.map Node.id) own)
  · intro id named
    obtain ⟨node, own, rfl⟩ := Option.map_eq_some_iff.mp named
    have isOwn := List.find?_some own
    exact ⟨founder, replicated.tidy.used founder node.id (eq_of_beq isOwn)⟩
  · intro event here halt failed
    rw [List.mem_singleton.mp here] at failed ⊢
    exact faults halt failed

/-- What holds after the founding holds after all permitted requests that come later. -/
theorem founded_after (apart : Supply.Apart supply) (delivered : network.fates.AllDelivered)
    {founding : Event n}
    (world_eq : founding.world = start settings machine observer supply network)
    {listen advertise : String} (command_eq : founding.command = .initCluster listen advertise)
    {requests : List (Fin n × Command)}
    (permitted : ∀ event ∈ founding.after.history requests, event.Permitted)
    (advertised : ∀ event ∈ founding :: founding.after.history requests, event.Advertised) :
    ∃ order entry, (founding.after.after requests).Founded
      (founding :: founding.after.history requests) (founding.entered?.map Node.id) order
        entry := by
  induction requests using List.reverseRecOn with
  | nil =>
    exact founded_initCluster apart delivered world_eq command_eq
      (advertised founding List.mem_cons_self)
  | append_singleton requests request ih =>
    rw [history_append, ← List.cons_append] at advertised ⊢
    rw [history_append] at permitted
    obtain ⟨order, entry, founded⟩ := ih
      (fun event past => permitted event (List.mem_append_left _ past))
      (fun event past => advertised event (List.mem_append_left _ past))
    have last := List.mem_singleton_self
      (Event.mk (founding.after.after requests) request.1 request.2)
    rw [after_append]
    exact founded.step (permitted _ (List.mem_append_right _ last))
      (advertised _ (List.mem_append_right _ last))

end Start

/-- All current members hold a registry.  It has one entry of each of them, which is
the one it entered with but for what users edit. -/
structure OneRegistry (world : World n) (events : List (Event n)) (registry : List Node) :
    Prop where
  held : ∀ index, world.Current index → (world.member index).nodes = registry
  ids_nodup : (registry.map Node.id).Nodup
  exact : ∃ members : List (Fin n), members.Nodup ∧
    (∀ index, index ∈ members ↔ world.Current index) ∧
    registry.map some = members.map fun index => (world.member index).ownNode?
  origin : ∀ index, world.Current index → ∃ node, (world.member index).ownNode? = some node ∧
    ∃ event ∈ events, event.index = index ∧
      ∃ joined, event.entered? = some joined ∧ node.SameMember joined

section Founded

variable {world : World n} {events : List (Event n)} {leader? : Option String}
  {order : List (Fin n)} {entry : Fin n → Node}

theorem Founded.oneRegistry (founded : world.Founded events leader? order entry) :
    world.OneRegistry events (order.map entry) := by
  obtain ⟨agreed, tidy, _⟩ := founded.replicated
  have own : ∀ index ∈ order, (world.member index).ownNode? = some (entry index) :=
    fun index inside => agreed.ownNode?_eq tidy inside
  refine ⟨?_, ?_, ⟨order, agreed.nodup, fun index => (agreed.current_iff index).symm, ?_⟩, ?_⟩
  · intro index current
    exact agreed.nodes_eq index ((agreed.current_iff index).mp current)
  · rw [List.map_map]
    exact agreed.nodup_ids tidy
  · rw [List.map_map]
    exact List.map_congr_left fun index inside => (own index inside).symm
  · intro index current
    have inside := (agreed.current_iff index).mp current
    exact ⟨entry index, own index inside, founded.origin index inside⟩

/-- One entry leads as long as that of the leader is there, and none after that. -/
theorem Founded.countP_isLeader {leader : String}
    (founded : world.Founded events (some leader) order entry) :
    (order.map entry).countP Node.isLeader =
      if leader ∈ (order.map entry).map Node.id then 1 else 0 := by
  rw [← founded.oneRegistry.ids_nodup.count, List.map_map, List.count_eq_countP, List.countP_map,
    List.countP_map]
  refine List.countP_congr fun index inside => ?_
  simp only [Function.comp, founded.leads index inside, Option.some.injEq, beq_iff_eq]
  exact eq_comm

end Founded

/-- **All current members hold one registry.**  After one member was asked to found a
swarm, and any permitted requests came after that, no request failed because of a peer but
those that sent what is too long, which were refused for that and changed no registry.  If
the founder succeeded, exactly one entry leads as long as that of the founder is there. -/
theorem members_hold_one_registry {settings : Fin n → Settings} {machine : Fin n → Machine}
    {observer : Fin n → Observer} {supply : Fin n → Supply} (apart : Supply.Apart supply)
    {network : Network n} (delivered : network.fates.AllDelivered) {founding : Event n}
    (world_eq : founding.world = start settings machine observer supply network)
    {listen advertise : String} (command_eq : founding.command = .initCluster listen advertise)
    {requests : List (Fin n × Command)}
    (permitted : ∀ event ∈ founding.after.history requests, event.Permitted)
    (advertised : ∀ event ∈ founding :: founding.after.history requests, event.Advertised) :
    (∀ event ∈ founding :: founding.after.history requests, ∀ halt,
      event.outcome = .error halt → halt.isOfPeer = true →
        RefusedForLength event.sent? halt event.world event.after) ∧
    ∃ registry,
      (founding.after.after requests).OneRegistry (founding :: founding.after.history requests)
        registry ∧
      ∀ answer, founding.outcome = .ok answer → ∃ founder, founding.entered? = some founder ∧
        registry.countP Node.isLeader = if founder.id ∈ registry.map Node.id then 1 else 0 := by
  obtain ⟨order, entry, founded⟩ :=
    founded_after apart delivered world_eq command_eq permitted advertised
  refine ⟨founded.faults, order.map entry, founded.oneRegistry, fun answer succeeded => ?_⟩
  obtain ⟨founder, entered⟩ :=
    entered?_of_founding command_eq (nodes_of_start world_eq founding.index) succeeded
  rw [entered] at founded
  exact ⟨founder, entered, founded.countP_isLeader⟩

theorem members_hold_one_registry_comingAndGoing :
    let founding : Event 2 := ⟨twoMembers, 0, .initCluster "" ""⟩
    (((founding.after.after comingAndGoing).member 1).nodes.map fun node =>
      (node.id, node.spec.name)) = [("a", "first"), ("bbbbbb", "")] ∧
    (∀ event ∈ founding :: founding.after.history comingAndGoing, ∀ halt,
      event.outcome = .error halt → halt.isOfPeer = true →
        RefusedForLength event.sent? halt event.world event.after) ∧
    ∃ registry,
      (founding.after.after comingAndGoing).OneRegistry
        (founding :: founding.after.history comingAndGoing) registry ∧
      ∀ answer, founding.outcome = .ok answer → ∃ founder, founding.entered? = some founder ∧
        registry.countP Node.isLeader = if founder.id ∈ registry.map Node.id then 1 else 0 := by
  intro founding
  have different : Function.Injective fun index : Fin 2 => if index = 0 then 'a' else 'b' := by
    unfold Function.Injective
    decide
  exact ⟨by decide +kernel, members_hold_one_registry (Supply.apart_tally different)
    (fun _ => rfl) rfl rfl (by decide +kernel) (by decide +kernel)⟩

/-- A request to announce what is too long fails with the first peer, and nobody else hears
of it. -/
theorem run_perform_tooLong {world : World n} {index other : Fin n} {command : Command}
    {operation : NodeOperation}
    (announced : command.announced? (world.member index) = some operation)
    (long : operation.isTooLong = true) {peer : String} {later : List String}
    (fate : world.network.fates.next = .delivered) (first : world.peers index = peer :: later)
    (reaches : world.Reaches peer other) :
    (perform index command).run.run world =
      (.error (.failed (.unexpectedPeerResponse peer 413)),
        { world.announcing index command with network := world.network.advanceFate }) := by
  have network := network_announcing world index command
  have next : (world.announcing index command).network.fates.next = .delivered := by
    rw [network]
    exact fate
  have there : (world.announcing index command).Reaches peer other :=
    (reaches_congr (world.reach_announcing index command peer) other).mpr reaches
  have refused : (send (command.waiting index) peer operation .terminal).run.run
      (world.announcing index command) = _ := run_exchange_tooLong next long there
  refine (run_perform_announced announced).2 _ _ ?_
  rw [first, callAll, run_bind, refused, network]

/-- So does an update with a name that is too long. -/
theorem outcome_of_longName {world : World n} {index other : Fin n} {id name : String}
    (known : ((world.member index).inspectNode id).toOption.isSome = true)
    (long : Http.maxBody < name.length) {peer : String} {later : List String}
    (fate : world.network.fates.next = .delivered) (first : world.peers index = peer :: later)
    (reaches : world.Reaches peer other) :
    (Event.mk world index (.updateNode id { name := name })).outcome =
      .error (.failed (.unexpectedPeerResponse peer 413)) := by
  obtain ⟨node, found⟩ := Option.isSome_iff_exists.mp known
  have announced : (Command.updateNode id { name := name }).announced? (world.member index) =
      some (.update (node.withSpec { name := name } (world.member index).supply.next.instant)) := by
    rw [Command.announced?, found]
    rfl
  exact congrArg Prod.fst (run_perform_tooLong announced (NodeOperation.isTooLong_of_name long)
    fate first reaches)

/-- Permitted requests are refused by peers, even if all is delivered and members are reached
where they advertise: an update with a name that is too long, and a request to join through a
member whose address asks for a delivery of its own. -/
theorem peers_refuse_permitted_requests :
    let founding : Event 2 := ⟨twoMembers, 0, .initCluster "" ""⟩
    let address := "127.0.0.1:4000/internal/updatenodes?propagate=:1"
    let asking : Event 2 := ⟨twoMembers, 0, .initCluster ":4000" address⟩
    let joining : Event 2 := ⟨asking.after, 1, .joinCluster [address] "" ""⟩
    twoMembers.network.fates.AllDelivered ∧
    ((∀ event ∈ founding.after.history longName, event.Permitted) ∧
      (∀ event ∈ founding :: founding.after.history longName, event.Advertised) ∧
      ∃ event ∈ founding.after.history longName,
        event.outcome = .error (.failed (.unexpectedPeerResponse "127.0.0.1:32768" 413))) ∧
    (∃ node ∈ asking.entered?, node.peerAddress? = some address) ∧
      (∃ reached ∈ asking.after.network.reach address, reached.1 = .member 0) ∧
      joining.Permitted ∧
      joining.outcome = .error (.failed (.unexpectedPeerResponse address 400)) := by
  intro founding address asking joining
  refine ⟨fun _ => rfl, ⟨by decide +kernel, by decide +kernel, ?_⟩, by decide +kernel,
    by decide +kernel, by decide +kernel, halt?_eq_some.mp (by decide +kernel)⟩
  let joined : World 2 := founding.after.after (longName.take 1)
  let name := String.ofList (List.replicate 2097153 'x')
  have long : Http.maxBody < name.length := by
    rw [String.length_ofList, List.length_replicate]
    decide
  refine ⟨⟨joined, 1, .updateNode "a" { name := name }⟩, ?_, ?_⟩
  · exact List.mem_cons_of_mem _ List.mem_cons_self
  · have known : ((joined.member 1).inspectNode "a").toOption.isSome = true := by decide +kernel
    have fate : joined.network.fates.next = .delivered := by decide +kernel
    have listed : joined.peers 1 = ["127.0.0.1:32768"] := by decide +kernel
    have reaches : joined.Reaches "127.0.0.1:32768" 0 := by decide +kernel
    exact outcome_of_longName known long fate listed reaches

end World

end SwarmManager
