import SwarmManager.Proofs.OneHop

/-!
# Steps of a world, as the registries of nodes see them

The requests of clients that are about swarms and nodes do little to the registries of
nodes: one operation is delivered to some members (`Delivered`), and the member that is
asked enters a swarm, leaves it or applies the operation itself.  All other requests, and
those that are refused at once, leave alone who lists whom and who listens where
(`SameMembership`).

`RegistryStep` says all that a request may do.  An operation that a member is sent to pass
on is taken by some first peers of that member and then maybe by itself (`PassedOn`); the
member that waits for its peers takes nothing.
-/

namespace SwarmManager

set_option autoImplicit false

variable {n : Nat}

/-! ## Requests that are not about nodes -/

/-- Between two states of a member nothing happened to who it is and whom it lists, and at
most draws were taken. -/
structure Member.SameMembership (before after : Member) : Prop where
  settings : after.settings = before.settings
  swarm : after.swarm = before.swarm
  nodeId : after.nodeId = before.nodeId
  nodes : after.nodes = before.nodes
  listener : after.listener = before.listener
  supply : ∃ count, after.supply = before.supply.ahead count

namespace Member.SameMembership

theorem refl (member : Member) : member.SameMembership member :=
  ⟨rfl, rfl, rfl, rfl, rfl, 0, rfl⟩

theorem drew (member : Member) (count : Nat) : member.SameMembership (member.drew count) :=
  ⟨rfl, rfl, rfl, rfl, rfl, count, rfl⟩

theorem trans {first second third : Member} (early : first.SameMembership second)
    (late : second.SameMembership third) : first.SameMembership third := by
  obtain ⟨earlier, one⟩ := early.supply
  obtain ⟨later, two⟩ := late.supply
  exact ⟨late.settings.trans early.settings, late.swarm.trans early.swarm,
    late.nodeId.trans early.nodeId, late.nodes.trans early.nodes,
    late.listener.trans early.listener, earlier + later, by rw [two, one, Supply.ahead_ahead]⟩

/-- Tasks and instances are no matter. -/
theorem register (member : Member) (placed : List Placed) :
    member.SameMembership (member.register placed) := by
  cases observer : member.observer <;>
    exact ⟨by simp [Member.register, tell, observer], by simp [Member.register, tell, observer],
      by simp [Member.register, tell, observer], by simp [Member.register, tell, observer],
      by simp [Member.register, tell, observer], 0, by rw [supply_register]; rfl⟩

theorem createService (member : Member) (spec : ServiceSpec) :
    member.SameMembership ((Member.createService spec).run.run member).2 := by
  rcases run_createService member spec with
    ⟨error, count, _, run⟩ | ⟨named, service, placed, turn, _, run⟩ <;> rw [run]
  · exact .drew member count
  · have drawn : member.SameMembership
        { member.drew (named + 1 + 2 * placed.length) with turn := turn } :=
      ⟨rfl, rfl, rfl, rfl, rfl, _, rfl⟩
    obtain ⟨settings, swarm, nodeId, nodes, listener, supply⟩ := drawn.trans (.register _ placed)
    exact ⟨settings, swarm, nodeId, nodes, listener, supply⟩

theorem updateService (member : Member) (asked : String) (spec : ServiceSpec) :
    member.SameMembership ((Member.updateService asked spec).run.run member).2 := by
  rcases run_updateService member asked spec with
    ⟨error, count, _, run⟩ | ⟨place, service, placed, turn, _, run⟩ <;> rw [run]
  · exact .drew member count
  · have drawn : member.SameMembership
        (({ member.drew (1 + 2 * placed.length) with turn := turn }).withoutTasksOf service.id) :=
      ⟨rfl, rfl, rfl, rfl, rfl, _, rfl⟩
    obtain ⟨settings, swarm, nodeId, nodes, listener, supply⟩ := drawn.trans (.register _ placed)
    exact ⟨settings, swarm, nodeId, nodes, listener, supply⟩

theorem deleteService (member : Member) (asked : String) :
    member.SameMembership ((Member.deleteService asked).run.run member).2 := by
  rcases run_deleteService member asked with ⟨error, run⟩ | ⟨place, _, _, run⟩ <;> rw [run]
  · exact .refl member
  · exact ⟨rfl, rfl, rfl, rfl, rfl, 0, rfl⟩

end Member.SameMembership

/-- Whether a request is about swarms and nodes. -/
def Command.isAboutNodes : Command → Bool
  | .initCluster _ _ | .joinCluster _ _ _ | .leaveCluster | .updateNode _ _ | .deleteNode _
  | .handleOperation _ _ => true
  | _ => false

namespace World

/-- Between two states of a world nothing happened to who is who, who lists whom and who
listens where. -/
structure SameMembership (before after : World n) : Prop where
  member : ∀ index, (before.member index).SameMembership (after.member index)
  network_eq : after.network = before.network

namespace SameMembership

theorem refl (world : World n) : SameMembership world world :=
  ⟨fun index => .refl (world.member index), rfl⟩

/-- A change of one member that is no matter. -/
theorem setMember (world : World n) (index : Fin n) {member : Member}
    (same : (world.member index).SameMembership member) :
    SameMembership world (world.setMember index member) := by
  refine ⟨fun other => ?_, rfl⟩
  rw [member_setMember]
  split
  next here => exact here ▸ same
  next => exact .refl _

theorem act {α : Type} {action : Member.Action α}
    (same : ∀ member : Member, member.SameMembership (action.run.run member).2) (index : Fin n)
    (world : World n) : SameMembership world ((World.act index action).run.run world).2 := by
  rw [run_act]
  exact .setMember world index (same _)

/-- Looking something up changes nothing. -/
theorem lookUp {α β : Type} (index : Fin n) (view : Member → Except Error α) (shown : α → β)
    (world : World n) :
    SameMembership world
      ((do return shown (← found (view (← look index))) : Action n β).run.run world).2 := by
  simp only [run_bind, run_look, run_found]
  cases view (world.member index) <;> exact .refl world

/-- What is answered is no matter. -/
theorem answer {α β : Type} {action : Action n α} (shown : α → β) {world : World n}
    (same : SameMembership world (action.run.run world).2) :
    SameMembership world ((do return shown (← action) : Action n β).run.run world).2 := by
  rw [run_answer]
  exact same

theorem perform (world : World n) (index : Fin n) {command : Command}
    (quiet : command.isAboutNodes = false) :
    SameMembership world ((World.perform index command).run.run world).2 := by
  cases command with
  | initCluster | joinCluster | leaveCluster | updateNode | deleteNode | handleOperation =>
    exact absurd quiet (by simp [Command.isAboutNodes])
  | inspectSwarm => exact lookUp index Member.inspectSwarm _ world
  | inspectNode id => exact lookUp index (Member.inspectNode · id) _ world
  | listNodes => exact lookUp index Member.listNodes _ world
  | inspectService asked => exact lookUp index (Member.inspectService · asked) _ world
  | listServices filters => exact lookUp index (Member.listServices · filters) _ world
  | inspectTask id => exact lookUp index (Member.inspectTask · id) _ world
  | listTasks filters => exact lookUp index (Member.listTasks · filters) _ world
  | inspectInstance asked => exact lookUp index (Member.inspectInstance · asked) _ world
  | nodeId | peerAddress | listInstances => exact .refl world
  | createService spec =>
    exact answer _ (act (Member.SameMembership.createService · spec) index world)
  | updateService asked spec =>
    exact answer _ (act (Member.SameMembership.updateService · asked spec) index world)
  | deleteService asked =>
    exact answer (fun _ => Answer.done)
      (act (Member.SameMembership.deleteService · asked) index world)

end SameMembership

/-! ## Passing an operation on -/

/-- What may become of an operation that is sent to an address to be passed on: nobody takes
it, or some first peers of the member there take it and, after all of them, maybe the
member.  If there is an answer, they all took it. -/
structure PassedOn (waiting : Option (Fin n)) (operation : NodeOperation) (remote : String)
    (before : World n) (outcome : Except Halt (List Node)) (after : World n) : Prop where
  taken : ∃ took calls, Delivered operation took calls before after ∧
    (took = [] ∨ ∃ through, before.Reaches remote through ∧ waiting ≠ some through ∧
      took <+: before.peers through ++ [remote])
  answered : ∀ nodes, outcome = .ok nodes →
    ∃ through calls, before.Reaches remote through ∧ waiting ≠ some through ∧
      Delivered operation (before.peers through ++ [remote]) calls before after ∧
      nodes = (after.member through).nodes

section PassedOn

variable {waiting : Option (Fin n)} {operation : NodeOperation} {remote : String}
  {world after : World n}

/-- What fails without being taken. -/
theorem PassedOn.missed (waiting : Option (Fin n)) (operation : NodeOperation) (remote : String)
    (world : World n) (halt : Halt) :
    PassedOn waiting operation remote world (.error halt) world where
  taken := ⟨[], 0, .none operation world, .inl rfl⟩
  answered := by rintro _ ⟨⟩

/-- An outcome that is no better than another one. -/
theorem PassedOn.weaken {outcome weaker : Except Halt (List Node)}
    (passedOn : PassedOn waiting operation remote world outcome after)
    (weakens : ∀ nodes, weaker = .ok nodes → outcome = .ok nodes) :
    PassedOn waiting operation remote world weaker after where
  taken := passedOn.taken
  answered nodes ok := passedOn.answered nodes (weakens nodes ok)

/-- A member that is sent an operation to pass on calls its peers and then applies it. -/
theorem passedOn_handle {through : Fin n} (reaches : world.Reaches remote through)
    (free : waiting ≠ some through) :
    PassedOn waiting operation remote world
      ((handle waiting through operation .propagate).run.run world).1
      ((handle waiting through operation .propagate).run.run world).2 := by
  simp only [handle, ↓reduceIte, run_bind, run_look, announce_eq_callAll]
  rcases run : (callAll waiting operation (world.peers through)).run.run world with
    ⟨halt | _, next⟩
  · obtain ⟨contacted, peer, later, split, failing⟩ := run_callAll_error.mp run
    obtain ⟨_, took, which, delivered⟩ := failing.delivered
    have first : took <+: world.peers through ++ [remote] := by
      rw [split]
      rcases which with rfl | rfl
      · exact ⟨_, List.append_assoc _ _ _ |>.symm⟩
      · exact ⟨later ++ [remote], by simp⟩
    rw [show (callAll waiting operation (peersOf _ _)).run.run world = _ from run]
    exact ⟨⟨took, _, delivered, .inr ⟨through, reaches, free, first⟩⟩, by rintro _ ⟨⟩⟩
  · obtain ⟨_, delivered⟩ := (run_callAll_ok.mp run).delivered
    rw [show (callAll waiting operation (peersOf _ _)).run.run world = _ from run]
    simp only [run_receive]
    have there : next.Reaches remote through :=
      (reaches_congr (delivered.reach_eq remote) through).mpr reaches
    have all := delivered.append (delivered_member there)
    refine ⟨⟨_, _, all, .inr ⟨through, reaches, free, List.prefix_rfl⟩⟩, ?_⟩
    rintro _ ⟨⟩
    exact ⟨through, _, reaches, free, all, by rw [member_setMember_self]⟩

/-- The sender sees no reason why a member failed. -/
theorem PassedOn.relay {answer : Action n (List Node)}
    (passedOn : PassedOn waiting operation remote world (answer.run.run world).1
      (answer.run.run world).2) :
    PassedOn waiting operation remote world ((World.relay remote answer).run.run world).1
      ((World.relay remote answer).run.run world).2 := by
  revert passedOn
  simp only [World.relay, run_tryCatch]
  rcases answer.run.run world with ⟨(error | _) | nodes, next⟩ <;> intro passedOn
  · exact passedOn.weaken (by rintro _ ⟨⟩)
  · exact passedOn
  · exact passedOn

/-- Without its reply a request fails, whoever took the operation. -/
theorem PassedOn.unseen {answer : Action n (List Node)}
    (passedOn : PassedOn waiting operation remote world (answer.run.run world).1
      (answer.run.run world).2) :
    PassedOn waiting operation remote world ((World.unseen remote answer).run.run world).1
      ((World.unseen remote answer).run.run world).2 := by
  revert passedOn
  simp only [World.unseen, run_tryCatch, run_bind]
  rcases answer.run.run world with ⟨(error | _) | nodes, next⟩ <;> intro passedOn <;>
    exact passedOn.weaken (by rintro _ ⟨⟩)

theorem passedOn_contact
    (inside : ∀ outsider target, world.network.reach remote ≠ some (.outsider outsider, target)) :
    PassedOn waiting operation remote world
      ((contact waiting (fun index asked => handle waiting index operation asked) remote .propagate
        operation).run.run world).1
      ((contact waiting (fun index asked => handle waiting index operation asked) remote .propagate
        operation).run.run world).2 := by
  simp only [contact, run_bind, run_get]
  cases reached : world.network.reach remote with
  | none => exact .missed waiting operation remote world _
  | some found =>
    obtain ⟨owner, target⟩ := found
    cases owner with
    | outsider outsider => exact absurd reached (inside outsider target)
    | member through =>
      dsimp only
      cases accepted :
        Http.PeerEndpoint.accept "POST" (target.asking .propagate) operation.isTooLong with
      | error response => exact .missed waiting operation remote world _
      | ok asked =>
        obtain ⟨takes, _, rfl⟩ := Http.PeerEndpoint.accept_asking_eq_ok.mp accepted
        dsimp only
        split
        next => exact .missed waiting operation remote world _
        next free => exact (passedOn_handle (.of_reach reached takes) free).relay

/-- An exchange meets its fate before it is carried out. -/
theorem PassedOn.met {outcome : Except Halt (List Node)}
    (passedOn : PassedOn waiting operation remote
      { world with network := world.network.advanceFate } outcome after) :
    PassedOn waiting operation remote world outcome after := by
  obtain ⟨⟨took, calls, delivered, which⟩, answered⟩ := passedOn
  refine ⟨⟨took, calls + 1, delivered.met, which⟩, fun nodes ok => ?_⟩
  obtain ⟨through, calls, reaches, free, all, replied⟩ := answered nodes ok
  exact ⟨through, calls + 1, reaches, free, all.met, replied⟩

/-- Sending an operation to be passed on leaves behind what `PassedOn` says. -/
theorem passedOn_send
    (inside : ∀ outsider target, world.network.reach remote ≠ some (.outsider outsider, target)) :
    PassedOn waiting operation remote world
      ((send waiting remote operation .propagate).run.run world).1
      ((send waiting remote operation .propagate).run.run world).2 := by
  have contacted : PassedOn waiting operation remote
      { world with network := world.network.advanceFate } _ _ := passedOn_contact inside
  simp only [send, exchange, run_bind, run_meetFate]
  cases world.network.fates.next with
  | delivered => exact contacted.met
  | requestLost => exact PassedOn.met (.missed _ _ _ _ _)
  | replyLost => exact contacted.unseen.met

end PassedOn

end World

/-! ## Who listens where -/

/-- Who is reached listens on an open socket that takes the endpoint to which the address
leads. -/
theorem Network.exists_socket_of_reach {network : Network n} {address : String}
    {owner : Owner n} {target : Http.Target}
    (reached : network.reach address = some (owner, target)) :
    ∃ endpoint socket, network.locate address = some (endpoint, target) ∧
      socket ∈ network.openSockets ∧ socket.endpoint.takes endpoint = true ∧
      socket.owner = owner := by
  obtain ⟨endpoint, socket, located, found, owned⟩ := reach_eq_some.mp reached
  have suits := List.find?_some found
  simp only [Bool.and_eq_true] at suits
  have present := List.mem_of_find?_eq_some found
  exact ⟨endpoint, socket, located, List.mem_filter.mpr ⟨present, suits.1⟩, suits.2, owned⟩

namespace World

/-- Nobody but members listens. -/
def Inside (world : World n) : Prop :=
  ∀ socket ∈ world.network.openSockets, ∃ owner, socket.owner = .member owner

theorem Inside.reach_ne {world : World n} (inside : world.Inside) (address : String)
    (outsider : Nat) (target : Http.Target) :
    world.network.reach address ≠ some (.outsider outsider, target) := by
  intro reached
  obtain ⟨_, socket, _, present, _, owned⟩ := Network.exists_socket_of_reach reached
  obtain ⟨owner, member⟩ := inside socket present
  cases member.symm.trans owned

/-! ## Requests that are about nodes -/

/-- A member outside any swarm opened an endpoint and drew the node it will be. -/
structure Opens (before : World n) (index : Fin n) (address advertise : String) (isLeader : Bool)
    (endpoint : Endpoint) (node : Node) (opened : World n) : Prop where
  outside : (before.member index).swarm = none
  listened : ∃ network, before.listen index address = .ok (endpoint, network) ∧
    opened = before.listening index network
  node_eq : node = (before.member index).asNode advertise endpoint isLeader

namespace Opens

variable {before opened : World n} {index : Fin n} {address advertise : String} {isLeader : Bool}
  {endpoint : Endpoint} {node : Node}

theorem member_self (opens : Opens before index address advertise isLeader endpoint node opened) :
    opened.member index = (before.member index).drew 1 := by
  obtain ⟨_, _, rfl⟩ := opens.listened
  exact member_setMember_self _ _ _

theorem member_of_ne (opens : Opens before index address advertise isLeader endpoint node opened)
    {other : Fin n} (apart : other ≠ index) : opened.member other = before.member other := by
  obtain ⟨_, _, rfl⟩ := opens.listened
  exact member_setMember_of_ne _ apart _

theorem member_drew (opens : Opens before index address advertise isLeader endpoint node opened)
    (other : Fin n) : ∃ count, opened.member other = (before.member other).drew count := by
  obtain ⟨network, _, rfl⟩ := opens.listened
  exact member_setMember_drew { before with network := network } index 1 other

theorem nodes_eq (opens : Opens before index address advertise isLeader endpoint node opened)
    (other : Fin n) : (opened.member other).nodes = (before.member other).nodes := by
  obtain ⟨count, drew⟩ := opens.member_drew other
  rw [drew]
  rfl

theorem openSockets_eq
    (opens : Opens before index address advertise isLeader endpoint node opened) :
    opened.network.openSockets =
      before.network.openSockets ++ [⟨endpoint, .member index, true⟩] := by
  obtain ⟨network, listened, rfl⟩ := opens.listened
  obtain ⟨_, _, rfl⟩ := Network.listen_eq_ok listened
  exact Network.openSockets_opened before.network endpoint (.member index)

theorem system_eq (opens : Opens before index address advertise isLeader endpoint node opened) :
    opened.network.system = before.network.system := by
  obtain ⟨network, listened, rfl⟩ := opens.listened
  obtain ⟨_, _, rfl⟩ := Network.listen_eq_ok listened
  rfl

/-- The endpoint was free, so shutting it again takes nothing away from others. -/
theorem openSockets_shut
    (opens : Opens before index address advertise isLeader endpoint node opened)
    {network : Network n} (sockets : network.openSockets = opened.network.openSockets) :
    (network.shut endpoint).openSockets = before.network.openSockets := by
  obtain ⟨_, listened, _⟩ := opens.listened
  rw [Network.openSockets_shut, sockets, opens.openSockets_eq]
  exact Network.openSockets_shut_opened _ (Network.listen_eq_ok listened).1

theorem inside (opens : Opens before index address advertise isLeader endpoint node opened)
    (before_inside : before.Inside) : opened.Inside := by
  intro socket present
  rw [opens.openSockets_eq] at present
  rcases List.mem_append.mp present with old | new
  · exact before_inside socket old
  · exact ⟨index, by rw [List.mem_singleton.mp new]⟩

end Opens

/-- What a request of a client to a member does to who lists whom and who listens where:
nothing, or what a request that is about nodes does when it succeeds, or what it has done
when a peer fails. -/
inductive RegistryStep (before : World n) (index : Fin n) :
    Command → Except Halt Answer → World n → Prop
  | kept {command : Command} {outcome : Except Halt Answer} {after : World n}
      (same : SameMembership before after)
      (quiet : command.isAboutNodes = true → ∃ halt, outcome = .error halt) :
      RegistryStep before index command outcome after
  | started {address advertise : String} {endpoint : Endpoint} {node : Node} {opened : World n}
      (opens : Opens before index address advertise true endpoint node opened) :
      RegistryStep before index (.initCluster address advertise) (.ok (.identifier node.id))
        (opened.setMember index ((opened.member index).entered endpoint node.id
          ((before.member index).nodes ++ [node])))
  | joined {remote : String} {rest : List String} {address advertise : String}
      {endpoint : Endpoint} {node : Node} {opened next : World n} {through : Fin n} {calls : Nat}
      (opens : Opens before index address advertise false endpoint node opened)
      (reaches : opened.Reaches remote through) (apart : through ≠ index)
      (delivered : Delivered (.add node) (opened.peers through ++ [remote]) calls opened next)
      (spared : next.member index = opened.member index) :
      RegistryStep before index (.joinCluster (remote :: rest) address advertise) (.ok .done)
        (next.setMember index ((opened.member index).entered endpoint node.id
          (next.member through).nodes))
  | notJoined {remote : String} {rest : List String} {address advertise : String}
      {endpoint : Endpoint} {node : Node} {opened next after : World n} {took : List String}
      {calls : Nat} {halt : Halt}
      (opens : Opens before index address advertise false endpoint node opened)
      (delivered : Delivered (.add node) took calls opened next)
      (taken : took = [] ∨ ∃ through, opened.Reaches remote through ∧ through ≠ index ∧
        took <+: opened.peers through ++ [remote])
      (spared : next.member index = opened.member index)
      (members : ∀ other, after.member other = next.member other)
      (system : after.network.system = before.network.system)
      (sockets : after.network.openSockets = before.network.openSockets ∨
        halt = .stalled ∧ after.network.openSockets = opened.network.openSockets) :
      RegistryStep before index (.joinCluster (remote :: rest) address advertise) (.error halt)
        after
  | left (inside : (before.member index).swarm.isSome) :
      RegistryStep before index .leaveCluster (.ok .done)
        (({ before with network := before.closing index } : World n).setMember index
          (before.member index).outside)
  | spread {command : Command} {operation : NodeOperation} {answer : Answer} {next : World n}
      {calls : Nat} (announced : command.announced? (before.member index) = some operation)
      (delivered :
        Delivered operation (before.peers index) calls (before.announcing index command) next)
      (spared : next.member index = (before.announcing index command).member index) :
      RegistryStep before index command (.ok answer) (next.applied index operation)
  | notSpread {command : Command} {operation : NodeOperation} {halt : Halt} {next : World n}
      {took : List String} {calls : Nat}
      (announced : command.announced? (before.member index) = some operation)
      (delivered : Delivered operation took calls (before.announcing index command) next)
      (first : took <+: before.peers index)
      (spared : next.member index = (before.announcing index command).member index) :
      RegistryStep before index command (.error halt) next

section Step

variable {before after : World n} {index : Fin n} {operation : NodeOperation}

/-- A member that is intact took nothing. -/
theorem Delivered.member_eq_of_intact {took : List String} {calls : Nat}
    (delivered : Delivered operation took calls before after)
    (intact : Intact index before after) : after.member index = before.member index := by
  obtain ⟨⟨count, drew⟩, _⟩ := intact
  have applied := delivered.member_eq index
  have nodes := congrArg Member.nodes (applied.symm.trans drew)
  exact applied.trans (congrArg (fun nodes => { before.member index with nodes := nodes }) nodes)

/-- To refuse a request changes nothing. -/
theorem RegistryStep.refused (world : World n) (index : Fin n) (command : Command) (halt : Halt) :
    RegistryStep world index command (.error halt) world :=
  .kept (.refl world) fun _ => ⟨halt, rfl⟩

theorem registryStep_initCluster (world : World n) (index : Fin n) (address advertise : String) :
    RegistryStep world index (.initCluster address advertise)
      ((perform index (.initCluster address advertise)).run.run world).1
      ((perform index (.initCluster address advertise)).run.run world).2 := by
  simp only [perform, run_answer, run_initCluster]
  cases outside : (world.member index).swarm with
  | some swarm => exact .refused world index _ _
  | none =>
    cases listened : world.listen index address with
    | error error => exact .refused world index _ _
    | ok opened =>
      have opens : Opens world index address advertise true opened.1 _
          (world.listening index opened.2) := ⟨outside, ⟨_, listened, rfl⟩, rfl⟩
      have step := RegistryStep.started opens
      rw [listening, member_setMember_self] at step
      exact step

/-- A request that is announced leaves behind what all peers took, or the first ones. -/
theorem registryStep_announced (world : World n) (index : Fin n) {command : Command}
    (announced : command.announced? (world.member index) = some operation)
    (waits : command.waiting index = some index) :
    RegistryStep world index command ((perform index command).run.run world).1
      ((perform index command).run.run world).2 := by
  obtain ⟨succeeds, fails⟩ := run_perform_announced announced
  have intact := intact_announce (world.announcing index command) index operation
    (world.member index).nodeId (world.member index).nodes
  rw [announce_eq_callAll] at intact
  rcases run : (callAll (some index) operation (world.peers index)).run.run
    (world.announcing index command) with ⟨halt | _, next⟩
  · obtain ⟨contacted, peer, later, split, failing⟩ := run_callAll_error.mp run
    obtain ⟨_, took, which, delivered⟩ := failing.delivered
    rw [fails halt next (by rw [waits]; exact run)]
    rw [show (callAll (some index) operation (peersOf _ _)).run.run _ = _ from run] at intact
    refine .notSpread announced delivered ?_ (delivered.member_eq_of_intact intact)
    rw [split]
    rcases which with rfl | rfl
    · exact List.prefix_append _ _
    · exact ⟨later, by simp⟩
  · obtain ⟨_, delivered⟩ := (run_callAll_ok.mp run).delivered
    obtain ⟨answer, done⟩ := succeeds next (by rw [waits]; exact run)
    rw [done]
    rw [show (callAll (some index) operation (peersOf _ _)).run.run _ = _ from run] at intact
    exact .spread announced delivered (delivered.member_eq_of_intact intact)

theorem registryStep_joinCluster {world : World n} (inside : world.Inside) (index : Fin n)
    (remotes : List String) (address advertise : String) :
    RegistryStep world index (.joinCluster remotes address advertise)
      ((perform index (.joinCluster remotes address advertise)).run.run world).1
      ((perform index (.joinCluster remotes address advertise)).run.run world).2 := by
  simp only [perform, run_bind, run_joinCluster]
  cases outside : (world.member index).swarm with
  | some swarm => exact .refused world index _ _
  | none =>
    cases remotes with
    | nil => exact .refused world index _ _
    | cons remote rest =>
      cases listened : world.listen index address with
      | error error => exact .refused world index _ _
      | ok pair =>
        obtain ⟨endpoint, network⟩ := pair
        dsimp only
        generalize described : (world.member index).asNode advertise endpoint false = node
        have opens : Opens world index address advertise false endpoint node
            (world.listening index network) := ⟨outside, ⟨_, listened, rfl⟩, described.symm⟩
        generalize world.listening index network = opened at opens
        have intact := keeps_send (overlooks_intact index) ne_of_waiting remote (.add node)
          .propagate opened
        obtain ⟨⟨took, calls, delivered, taken⟩, answered⟩ : PassedOn (some index) (.add node)
            remote opened _ _ := passedOn_send <|
          (opens.inside inside).reach_ne remote
        have spared := delivered.member_eq_of_intact intact
        have first : took = [] ∨ ∃ through, opened.Reaches remote through ∧ through ≠ index ∧
            took <+: opened.peers through ++ [remote] := by
          rcases taken with none | ⟨through, reaches, free, rest⟩
          · exact .inl none
          · exact .inr ⟨through, reaches, ne_of_waiting through free, rest⟩
        rcases run : (send (some index) remote (.add node) .propagate).run.run opened with
          ⟨(error | _) | nodes, next⟩ <;> rw [run] at delivered spared answered intact
        · exact .notJoined opens delivered first spared (fun _ => rfl)
            (delivered.system_eq.trans opens.system_eq)
            (.inl (opens.openSockets_shut intact.openSockets_eq))
        · exact .notJoined opens delivered first spared (fun _ => rfl)
            (delivered.system_eq.trans opens.system_eq) (.inr ⟨rfl, intact.openSockets_eq⟩)
        · obtain ⟨through, calls, reaches, free, all, replied⟩ := answered nodes rfl
          have same : next.member index = opened.member index := spared
          obtain rfl : nodes = (next.member through).nodes := replied
          change RegistryStep world index _ (.ok .done) (next.setMember index
            ((next.member index).entered endpoint node.id (next.member through).nodes))
          rw [same]
          exact .joined opens reaches (ne_of_waiting through free) all spared

/-- A request of a client does to the registries of nodes what `RegistryStep` says. -/
theorem registryStep_perform {world : World n} (inside : world.Inside) (index : Fin n)
    {command : Command} (client : Http.isForPeers command = false) :
    RegistryStep world index command ((perform index command).run.run world).1
      ((perform index command).run.run world).2 := by
  cases quiet : command.isAboutNodes with
  | false => exact .kept (.perform world index quiet) fun about => absurd about (by simp [quiet])
  | true =>
    cases command with
    | initCluster address advertise => exact registryStep_initCluster world index address advertise
    | joinCluster remotes address advertise =>
      exact registryStep_joinCluster inside index remotes address advertise
    | leaveCluster =>
      simp only [perform, run_bind, run_leaveCluster]
      by_cases inSwarm : (world.member index).swarm.isSome
      · rw [if_pos inSwarm]
        exact .left inSwarm
      · rw [if_neg inSwarm]
        exact .refused world index _ _
    | updateNode id spec =>
      cases found : (world.member index).inspectNode id with
      | error error =>
        simp only [perform, run_answer, run_updateNode, found]
        exact .refused world index _ _
      | ok node =>
        exact registryStep_announced world index
          (by simp only [Command.announced?, found]; rfl) rfl
    | deleteNode id =>
      cases found : (world.member index).inspectNode id with
      | error error =>
        simp only [perform, run_bind, run_deleteNode, found]
        exact .refused world index _ _
      | ok node =>
        exact registryStep_announced world index
          (by simp only [Command.announced?, found]; rfl) rfl
    | handleOperation operation delivery => exact absurd client (by simp [Http.isForPeers])
    | _ => exact absurd quiet (by simp [Command.isAboutNodes])

end Step

end World

end SwarmManager
