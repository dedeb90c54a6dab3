import SwarmManager.Proofs.History
import SwarmManager.Proofs.RegistrySteps
import SwarmManager.Proofs.Replication

/-!
# Entries after a request

An entry points to a member if its peer address leads to where the member listens
(`World.PointsTo`).  A request changes entries in what users edit only, and brings but one
new entry, that of the member that is about to enter (`Event.offered?`).  So what holds of
all entries and of the one that is offered still holds of all entries after the request
(`AllEntries.registryStep`).

A member in a swarm opens no endpoint, so nothing comes to lead to it that did not before
(`RegistryStep.pointsTo_before`).
-/

namespace SwarmManager

set_option autoImplicit false

variable {n : Nat}

/-! ## What entries point to -/

namespace World

/-- An address leads to a member that listens where it may take operations. -/
def LeadsTo (world : World n) (address : String) (index : Fin n) : Prop :=
  ∃ located ∈ world.network.locate address, located.2.takesOperations = true ∧
    ∃ socket ∈ world.network.openSockets,
      socket.owner = .member index ∧ socket.endpoint.takes located.1 = true

instance (world : World n) (address : String) (index : Fin n) :
    Decidable (world.LeadsTo address index) :=
  inferInstanceAs (Decidable
    (∃ _ ∈ world.network.locate address, _ ∧ ∃ _ ∈ world.network.openSockets, _ ∧ _))

/-- An entry points to a member that its peer address leads to. -/
def PointsTo (world : World n) (node : Node) (index : Fin n) : Prop :=
  ∃ address ∈ node.peerAddress?, world.LeadsTo address index

instance (world : World n) (node : Node) (index : Fin n) : Decidable (world.PointsTo node index) :=
  inferInstanceAs (Decidable (∃ _ ∈ node.peerAddress?, _))

/-- The settling of the network is no matter to what entries point to. -/
theorem pointsTo_settle (world : World n) (earlier : Network n) (node : Node) (index : Fin n) :
    ({ world with network := world.network.settle earlier } : World n).PointsTo node index ↔
      world.PointsTo node index := by
  have system : (world.network.settle earlier).system = world.network.system := rfl
  simp only [PointsTo, LeadsTo, Network.openSockets_settle, Network.locate, system]

/-- Something holds of all entries of all registries. -/
def AllEntries (world : World n) (holds : Node → Prop) : Prop :=
  ∀ index, ∀ node ∈ (world.member index).nodes, holds node

instance (world : World n) (holds : Node → Prop) [DecidablePred holds] :
    Decidable (world.AllEntries holds) :=
  inferInstanceAs (Decidable (∀ index, ∀ node ∈ (world.member index).nodes, _))

end World

/-- Whom an address reaches it leads to. -/
theorem World.Reaches.leadsTo {world : World n} {address : String} {index : Fin n}
    (reaches : world.Reaches address index) : world.LeadsTo address index := by
  obtain ⟨target, reached, takes⟩ := reaches.exists_target
  obtain ⟨endpoint, socket, located, present, suits, owned⟩ :=
    Network.exists_socket_of_reach reached
  exact ⟨(endpoint, target), located, takes, socket, present, owned, suits⟩

/-- The node that a request may make known: the one as which a member that is outside any
swarm is about to enter. -/
def Event.offered? (event : Event n) : Option Node :=
  let described (listen advertise : String) (isLeader : Bool) : Option Node :=
    (event.world.listen event.index listen).toOption.map fun opened =>
      (event.world.member event.index).asNode advertise opened.1 isLeader
  match (event.world.member event.index).swarm, event.command with
  | none, .initCluster listen advertise => described listen advertise true
  | none, .joinCluster _ listen advertise => described listen advertise false
  | _, _ => none

/-! ## Entries after a request -/

/-- A node is not found by a member outside any swarm or of an identifier that is not listed, and
otherwise the first entry of the identifier is. -/
theorem Member.inspectNode_cases (member : Member) (id : String) :
    member.inspectNode id = .error .notInSwarm ∨
      member.inspectNode id = .error (.nodeNotFound id) ∨
      ∃ node, member.inspectNode id = .ok node ∧
        (member.nodes.find? fun entry => entry.id == id) = some node := by
  simp only [inspectNode, inspectSwarm]
  cases member.swarm with
  | none => exact .inl rfl
  | some swarm =>
    cases member.nodes.find? fun entry => entry.id == id with
    | none => exact .inr (.inl rfl)
    | some node => exact .inr (.inr ⟨node, rfl, rfl⟩)

theorem Member.find?_of_inspectNode {member : Member} {id : String} {node : Node}
    (found : member.inspectNode id = .ok node) :
    (member.nodes.find? fun entry => entry.id == id) = some node := by
  rcases member.inspectNode_cases id with outside | missing | ⟨other, looked, first⟩
  · cases outside.symm.trans found
  · cases missing.symm.trans found
  · cases looked.symm.trans found
    exact first

/-- A node that is found is listed. -/
theorem Member.mem_nodes_of_inspectNode {member : Member} {id : String} {node : Node}
    (found : (member.inspectNode id).toOption = some node) : node ∈ member.nodes := by
  cases looked : member.inspectNode id with
  | error error =>
    rw [looked] at found
    cases found
  | ok other =>
    rw [looked] at found
    cases found
    exact List.mem_of_find?_eq_some (find?_of_inspectNode looked)

/-- A node that is announced is listed, but for what users edit. -/
theorem Command.announced_listed {command : Command} {operation : NodeOperation} {member : Member}
    (client : Http.isForPeers command = false)
    (announced : command.announced? member = some operation) :
    ∃ node ∈ member.nodes, operation.node.SameMember node := by
  cases command with
  | updateNode id spec =>
    obtain ⟨node, found, rfl⟩ := Option.map_eq_some_iff.mp announced
    exact ⟨node, Member.mem_nodes_of_inspectNode found, .withSpec node spec _⟩
  | deleteNode id =>
    obtain ⟨node, found, rfl⟩ := Option.map_eq_some_iff.mp announced
    exact ⟨node, Member.mem_nodes_of_inspectNode found, .refl node⟩
  | handleOperation asked delivery => exact absurd client (by simp [Http.isForPeers])
  | _ => cases announced

/-- What holds of a registry and of the node of an operation holds of the registry that
the operation makes of it. -/
theorem NodeOperation.forall_mem_apply {operation : NodeOperation} {nodes : List Node}
    {holds : Node → Prop} (all : ∀ node ∈ nodes, holds node) (new : holds operation.node) :
    ∀ node ∈ operation.apply nodes, holds node := by
  intro node listed
  obtain ⟨kind, changed⟩ := operation
  cases kind with
  | add =>
    rcases List.mem_append.mp listed with old | added
    · exact all node old
    · exact List.mem_singleton.mp added ▸ new
  | update =>
    change node ∈ replaceFirst changed nodes at listed
    induction nodes with
    | nil => exact absurd listed List.not_mem_nil
    | cons first rest ih =>
      obtain ⟨here, others⟩ := List.forall_mem_cons.mp all
      rw [replaceFirst] at listed
      split at listed <;> rcases List.mem_cons.mp listed with rfl | later
      · exact new
      · exact others node later
      · exact here
      · exact ih others later
  | delete => exact all node (List.mem_of_mem_eraseP listed)

namespace World

variable {before after opened : World n} {index : Fin n} {holds : Node → Prop}

/-- A member that opened an endpoint offers the node it drew. -/
theorem Opens.described {address advertise : String} {isLeader : Bool} {endpoint : Endpoint}
    {node : Node} (opens : Opens before index address advertise isLeader endpoint node opened) :
    ((before.listen index address).toOption.map fun pair =>
      (before.member index).asNode advertise pair.1 isLeader) = some node := by
  obtain ⟨network, listened, _⟩ := opens.listened
  rw [listened, opens.node_eq]
  rfl

namespace AllEntries

theorem delivered {operation : NodeOperation} {took : List String} {calls : Nat}
    (all : before.AllEntries holds) (delivered : Delivered operation took calls before after)
    (new : holds operation.node) : after.AllEntries holds := by
  have keeps : ∀ nodes : List Node, (∀ node ∈ nodes, holds node) →
      ∀ node ∈ operation.apply nodes, holds node :=
    fun _ old => NodeOperation.forall_mem_apply old new
  intro other
  rw [delivered.member_eq]
  exact Function.Iterate.rec (fun nodes : List Node => ∀ node ∈ nodes, holds node) (all other)
    keeps _

theorem setMember {member : Member} (all : before.AllEntries holds)
    (there : ∀ node ∈ member.nodes, holds node) :
    (before.setMember index member).AllEntries holds := by
  intro other
  rw [member_setMember]
  split
  · exact there
  · exact all other

theorem of_nodes (all : before.AllEntries holds)
    (same : ∀ other, (after.member other).nodes = (before.member other).nodes) :
    after.AllEntries holds := by
  intro other
  rw [same]
  exact all other

/-- What holds of all entries and of the node that a request offers, and is no matter of
what users edit, holds of all entries after the request. -/
theorem registryStep {command : Command} {outcome : Except Halt Answer}
    (all : before.AllEntries holds) (step : RegistryStep before index command outcome after)
    (client : Http.isForPeers command = false)
    (lasting : ∀ node other : Node, node.SameMember other → holds other → holds node)
    (offered : ∀ node ∈ (Event.mk before index command).offered?, holds node) :
    after.AllEntries holds := by
  have offers {address advertise : String} {isLeader : Bool} {endpoint : Endpoint} {node : Node}
      {opened : World n}
      (opens : Opens before index address advertise isLeader endpoint node opened)
      (same : (Event.mk before index command).offered? =
        (before.listen index address).toOption.map fun pair =>
          (before.member index).asNode advertise pair.1 isLeader) : holds node :=
    offered node (same.trans opens.described)
  have announced {operation : NodeOperation}
      (announced : command.announced? (before.member index) = some operation) :
      holds operation.node := by
    obtain ⟨node, listed, same⟩ := command.announced_listed client announced
    exact lasting _ node same (all index node listed)
  cases step with
  | kept same quiet => exact all.of_nodes fun other => (same.member other).nodes
  | @started address advertise endpoint node opened opens =>
    have new := offers opens (by simp only [Event.offered?, opens.outside])
    have appended : ∀ entry ∈ (NodeOperation.add node).apply (before.member index).nodes,
        holds entry := NodeOperation.forall_mem_apply (all index) new
    exact (all.of_nodes opens.nodes_eq).setMember appended
  | joined opens reaches apart delivered spared =>
    have new := offers opens (by simp only [Event.offered?, opens.outside])
    have next := (all.of_nodes opens.nodes_eq).delivered delivered new
    exact next.setMember (next _)
  | notJoined opens delivered taken spared members system sockets =>
    have new := offers opens (by simp only [Event.offered?, opens.outside])
    have next := (all.of_nodes opens.nodes_eq).delivered delivered new
    exact next.of_nodes fun other => by rw [members]
  | left inside =>
    have closed : ({ before with network := before.closing index } : World n).AllEntries holds :=
      all
    exact closed.setMember fun node none => absurd none List.not_mem_nil
  | spread asked delivered spared =>
    have next := (all.of_nodes (nodes_announcing before index command)).delivered delivered
      (announced asked)
    exact next.setMember (NodeOperation.forall_mem_apply (next index) (announced asked))
  | notSpread asked delivered first spared =>
    exact (all.of_nodes (nodes_announcing before index command)).delivered delivered
      (announced asked)

end AllEntries

/-! ## A member in a swarm -/

section InSwarm

variable {command : Command} {outcome : Except Halt Answer} {probe : Fin n}

/-- Who opens an endpoint is outside any swarm. -/
theorem Opens.ne_of_inSwarm {address advertise : String} {isLeader : Bool} {endpoint : Endpoint}
    {node : Node} (opens : Opens before index address advertise isLeader endpoint node opened)
    (inSwarm : (before.member probe).swarm.isSome) : probe ≠ index := by
  rintro rfl
  rw [opens.outside] at inSwarm
  cases inSwarm

theorem Delivered.swarm_eq {operation : NodeOperation} {took : List String} {calls : Nat}
    (delivered : Delivered operation took calls before after) (other : Fin n) :
    (after.member other).swarm = (before.member other).swarm := by
  rw [delivered.member_eq]

/-- A member stays in its swarm until it is asked to leave. -/
theorem RegistryStep.swarm_isSome (step : RegistryStep before index command outcome after)
    (inSwarm : (before.member probe).swarm.isSome)
    (stays : index = probe → command ≠ .leaveCluster) : (after.member probe).swarm.isSome := by
  have announcing : ((before.announcing index command).member probe).swarm.isSome := by
    obtain ⟨count, drew⟩ := before.member_announcing index command probe
    rw [drew]
    exact inSwarm
  cases step with
  | kept same quiet => rwa [(same.member probe).swarm]
  | started opens =>
    have apart := opens.ne_of_inSwarm inSwarm
    rwa [member_setMember_of_ne _ apart, opens.member_of_ne apart]
  | joined opens reaches apart delivered spared =>
    have apart := opens.ne_of_inSwarm inSwarm
    rwa [member_setMember_of_ne _ apart, delivered.swarm_eq, opens.member_of_ne apart]
  | notJoined opens delivered taken spared members system sockets =>
    rwa [members, delivered.swarm_eq, opens.member_of_ne (opens.ne_of_inSwarm inSwarm)]
  | left inside =>
    rw [member_setMember_of_ne _ fun here => stays here.symm rfl]
    exact inSwarm
  | @spread _ operation _ next _ asked delivered spared =>
    have next_inSwarm : (next.member probe).swarm.isSome := by rwa [delivered.swarm_eq]
    rw [applied, member_setMember]
    split
    next here => exact here ▸ next_inSwarm
    next => exact next_inSwarm
  | notSpread asked delivered first spared => rwa [delivered.swarm_eq]

/-- A member in a swarm listens nowhere anew. -/
theorem RegistryStep.mem_openSockets (step : RegistryStep before index command outcome after)
    (inSwarm : (before.member probe).swarm.isSome) {socket : Socket n}
    (present : socket ∈ after.network.openSockets) (owned : socket.owner = .member probe) :
    socket ∈ before.network.openSockets := by
  have opened {address advertise : String} {isLeader : Bool} {endpoint : Endpoint} {node : Node}
      {opened : World n}
      (opens : Opens before index address advertise isLeader endpoint node opened)
      (present : socket ∈ opened.network.openSockets) : socket ∈ before.network.openSockets := by
    rw [opens.openSockets_eq] at present
    rcases List.mem_append.mp present with old | new
    · exact old
    · obtain rfl := List.mem_singleton.mp new
      exact absurd (Owner.member.inj owned).symm (opens.ne_of_inSwarm inSwarm)
  cases step with
  | kept same quiet => rwa [same.network_eq] at present
  | started opens => exact opened opens present
  | joined opens reaches apart delivered spared =>
    rw [network_setMember, Network.openSockets, delivered.sockets_eq] at present
    exact opened opens present
  | notJoined opens delivered taken spared members system sockets =>
    rcases sockets with same | ⟨_, same⟩ <;> rw [same] at present
    · exact present
    · exact opened opens present
  | left inside =>
    obtain ⟨old, isOpen⟩ := List.mem_filter.mp present
    exact List.mem_filter.mpr ⟨Tidy.mem_of_mem_closing old, isOpen⟩
  | spread asked delivered spared =>
    rw [applied, network_setMember, Network.openSockets, delivered.sockets_eq,
      network_announcing] at present
    exact present
  | notSpread asked delivered first spared =>
    rw [Network.openSockets, delivered.sockets_eq, network_announcing] at present
    exact present

/-- The system stays the same, whatever is asked for. -/
theorem RegistryStep.system_eq (step : RegistryStep before index command outcome after) :
    after.network.system = before.network.system := by
  cases step with
  | kept same quiet => rw [same.network_eq]
  | started opens => exact opens.system_eq
  | joined opens reaches apart delivered spared => exact delivered.system_eq.trans opens.system_eq
  | notJoined opens delivered taken spared members system sockets => exact system
  | left inside =>
    simp only [network_setMember, closing]
    split <;> rfl
  | spread asked delivered spared =>
    rw [applied, network_setMember, delivered.system_eq, network_announcing]
  | notSpread asked delivered first spared => rw [delivered.system_eq, network_announcing]

/-- So no entry comes to point to it. -/
theorem RegistryStep.pointsTo_before (step : RegistryStep before index command outcome after)
    (inSwarm : (before.member probe).swarm.isSome) {node : Node}
    (points : after.PointsTo node probe) : before.PointsTo node probe := by
  obtain ⟨address, listed, place, located, takes, socket, present, owned, suits⟩ := points
  rw [Network.locate, step.system_eq] at located
  exact ⟨address, listed, place, located, takes, socket,
    step.mem_openSockets inSwarm present owned, owned, suits⟩

end InSwarm

end World

end SwarmManager
