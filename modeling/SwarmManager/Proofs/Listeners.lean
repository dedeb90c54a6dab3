import SwarmManager.Proofs.RegistrySteps

/-!
# Who listens is who is reached

A member takes an operation from a peer only on its endpoint.  So whatever is sent, and to
whom, a member that does not listen keeps its registry, and every member keeps its swarm, its
identifier and its endpoint (`Undisturbed`).

An endpoint is that of one member only (`Bound`): listening takes an endpoint that is free, and
giving one up takes nothing away from others.
-/

namespace SwarmManager

set_option autoImplicit false

variable {n : Nat}

namespace World

/-! ## Sending -/

/-- Whether somebody listens for a member. -/
def Listens (world : World n) (index : Fin n) : Prop :=
  ∃ socket ∈ world.network.openSockets, socket.owner = .member index

/-- Between two states of a world a member stayed in its swarm, or outside, and took nothing
unless it listened; nobody began to listen or stopped. -/
structure Undisturbed (probe : Fin n) (before after : World n) : Prop where
  swarm : (after.member probe).swarm = (before.member probe).swarm
  nodeId : (after.member probe).nodeId = (before.member probe).nodeId
  nodes : ¬ before.Listens probe → (after.member probe).nodes = (before.member probe).nodes
  listener : ∀ index, (after.member index).listener = (before.member index).listener
  openSockets_eq : after.network.openSockets = before.network.openSockets

namespace Undisturbed

variable {probe : Fin n}

theorem refl (world : World n) : Undisturbed probe world world :=
  ⟨rfl, rfl, fun _ => rfl, fun _ => rfl, rfl⟩

/-- Who listens is seen from the open sockets. -/
theorem listens_iff {before after : World n} (same : Undisturbed probe before after)
    (index : Fin n) : after.Listens index ↔ before.Listens index := by
  rw [Listens, Listens, same.openSockets_eq]

theorem trans (first second third : World n) (early : Undisturbed probe first second)
    (late : Undisturbed probe second third) : Undisturbed probe first third where
  swarm := late.swarm.trans early.swarm
  nodeId := late.nodeId.trans early.nodeId
  nodes deaf := (late.nodes ((early.listens_iff probe).not.mpr deaf)).trans (early.nodes deaf)
  listener index := (late.listener index).trans (early.listener index)
  openSockets_eq := late.openSockets_eq.trans early.openSockets_eq

/-- A member that is not the probe, or listens, may get other nodes. -/
theorem setNodes (world : World n) {index : Fin n} (heard : index = probe → world.Listens probe)
    (nodes : List Node) :
    Undisturbed probe world (world.setMember index { world.member index with nodes := nodes }) := by
  refine ⟨?_, ?_, fun deaf => ?_, fun other => ?_, rfl⟩ <;> rw [member_setMember]
  · split
    next here => rw [here]
    next => rfl
  · split
    next here => rw [here]
    next => rfl
  · rw [if_neg fun here => deaf (heard here.symm)]
  · split
    next here => rw [here]
    next => rfl

/-- A change of a member that is no matter for who it is and whom it lists. -/
theorem of_sameMembership {before after : World n} (same : SameMembership before after) :
    Undisturbed probe before after where
  swarm := (same.member probe).swarm
  nodeId := (same.member probe).nodeId
  nodes _ := (same.member probe).nodes
  listener index := (same.member index).listener
  openSockets_eq := by rw [same.network_eq]

end Undisturbed

theorem overlooks_undisturbed (probe : Fin n) :
    Overlooks (Undisturbed probe) fun _ => False where
  refl := Undisturbed.refl
  trans := Undisturbed.trans
  network _ _ _ := ⟨rfl, rfl, fun _ => rfl, fun _ => rfl, rfl⟩
  registry _ _ _ nobody := nobody.elim

section Sending

variable {probe : Fin n}

/-- A member that serves is undisturbed if it listens, and so is every other. -/
def ServesHeard (probe : Fin n) (serve : Serve n) : Prop :=
  ∀ (world : World n) (index : Fin n) (asked : Delivery), (index = probe → world.Listens probe) →
    Undisturbed probe world ((serve index asked).run.run world).2

theorem servesHeard_receive (operation : NodeOperation) :
    ServesHeard probe fun index _ => receive index operation := by
  intro world index _ heard
  rw [run_receive]
  exact .setNodes world heard _

/-- Only who listens is contacted. -/
theorem keeps_contact_heard {serve : Serve n}
    (serves : ServesHeard probe serve) (waiting : Option (Fin n)) (peer : String)
    (delivery : Delivery) (operation : NodeOperation) :
    Keeps (Undisturbed probe) (contact waiting serve peer delivery operation) := by
  have overlooks := overlooks_undisturbed probe
  intro world
  simp only [contact, run_bind, run_get]
  cases reached : world.network.reach peer with
  | none => exact .refl world
  | some found =>
    obtain ⟨owner, target⟩ := found
    cases owner with
    | outsider outsider => exact keeps_consult overlooks peer outsider _ world
    | member index =>
      dsimp only
      cases Http.PeerEndpoint.accept "POST" (target.asking delivery) operation.isTooLong with
      | error response => exact .refl world
      | ok asked =>
        dsimp only
        split
        · exact .refl world
        · obtain ⟨_, socket, _, present, _, owned⟩ := Network.exists_socket_of_reach reached
          have served := serves world index asked fun here => ⟨socket, present, here ▸ owned⟩
          simp only [relay, run_tryCatch]
          revert served
          rcases (serve index asked).run.run world with ⟨(error | _) | nodes, next⟩ <;> exact id

theorem keeps_exchange_heard {serve : Serve n}
    (serves : ServesHeard probe serve) (waiting : Option (Fin n)) (peer : String)
    (delivery : Delivery) (operation : NodeOperation) :
    Keeps (Undisturbed probe) (exchange waiting serve peer delivery operation) := by
  have overlooks := overlooks_undisturbed probe
  have carried := keeps_contact_heard serves waiting peer delivery operation
  refine .bind overlooks.trans (fun world => ?_) fun fate => ?_
  · exact overlooks.network world world.network.fates.advance world.network.outsiders
  · cases fate with
    | delivered => exact carried
    | requestLost => exact keeps_fail overlooks _
    | replyLost => exact keeps_unseen overlooks peer carried

theorem keeps_announce_heard (probe : Fin n) (waiting : Option (Fin n)) (operation : NodeOperation)
    (selfId : Option String) (nodes : List Node) :
    Keeps (Undisturbed probe) (announce waiting operation selfId nodes) := by
  have overlooks := overlooks_undisturbed probe
  induction nodes with
  | nil => exact keeps_pure overlooks _
  | cons node rest ih =>
    simp only [announce]
    split
    · split
      · exact ih
      · exact .bind overlooks.trans
          (keeps_exchange_heard (servesHeard_receive operation) waiting _ _ _) fun _ => ih
    · exact ih

/-- A member that passes an operation on contacts only who listens. -/
theorem servesHeard_handle (waiting : Option (Fin n)) (operation : NodeOperation) :
    ServesHeard probe fun index asked => handle waiting index operation asked := by
  intro world index asked heard
  simp only [handle]
  split
  · have announced := keeps_announce_heard probe waiting operation
      (world.member index).nodeId (world.member index).nodes world
    simp only [run_bind, run_look]
    revert announced
    rcases (announce waiting operation (world.member index).nodeId
      (world.member index).nodes).run.run world with ⟨halt | _, next⟩ <;> intro announced
    · exact announced
    · have still : index = probe → next.Listens probe :=
        fun here => (announced.listens_iff probe).mpr (heard here)
      exact announced.trans _ _ _ (servesHeard_receive operation next index asked still)
  · exact servesHeard_receive operation world index asked heard

theorem keeps_send_heard (probe : Fin n) (waiting : Option (Fin n)) (peer : String)
    (operation : NodeOperation) (delivery : Delivery) :
    Keeps (Undisturbed probe) (send waiting peer operation delivery) :=
  keeps_exchange_heard (servesHeard_handle waiting operation) waiting peer delivery operation

/-- A member spreads an operation among those who listen, and takes it itself. -/
theorem undisturbed_spread {world : World n} {index : Fin n}
    (heard : index = probe → world.Listens probe) (operation : NodeOperation) :
    Undisturbed probe world ((spread index operation).run.run world).2 := by
  have announced := keeps_announce_heard probe (some index) operation
    (world.member index).nodeId (world.member index).nodes world
  rw [run_spread]
  revert announced
  rcases (announce (some index) operation (world.member index).nodeId
    (world.member index).nodes).run.run world with ⟨halt | _, next⟩ <;> intro announced
  · exact announced
  · refine announced.trans _ _ _ (.setNodes next (fun here => ?_) _)
    exact (announced.listens_iff probe).mpr (heard here)

end Sending

/-! ## Endpoints -/

/-- The endpoint of a member is open, and nobody else listens there. -/
structure Bound (world : World n) : Prop where
  opened : ∀ index endpoint, (world.member index).listener = some endpoint →
    ⟨endpoint, .member index, true⟩ ∈ world.network.openSockets
  owned : ∀ index endpoint, (world.member index).listener = some endpoint →
    ∀ socket ∈ world.network.openSockets, socket.endpoint = endpoint →
      socket.owner = .member index

/-- The endpoints on which somebody listens for a member. -/
def endpointsOf (world : World n) (index : Fin n) : List Endpoint :=
  (world.network.openSockets.filter fun socket => socket.owner = .member index).map
    Socket.endpoint

/-- A member without endpoints does not listen. -/
theorem not_listens {world : World n} {index : Fin n} (none : world.endpointsOf index = []) :
    ¬ world.Listens index := by
  rintro ⟨socket, present, owned⟩
  have listed : socket.endpoint ∈ world.endpointsOf index :=
    List.mem_map_of_mem (List.mem_filter.mpr ⟨present, by simpa using owned⟩)
  rw [none] at listed
  exact List.not_mem_nil listed

theorem listens_of_mem {world : World n} {index : Fin n} {endpoint : Endpoint}
    (listed : endpoint ∈ world.endpointsOf index) : world.Listens index := by
  obtain ⟨socket, found, _⟩ := List.mem_map.mp listed
  obtain ⟨present, owned⟩ := List.mem_filter.mp found
  exact ⟨socket, present, by simpa using owned⟩

/-- A socket that is free to be opened is no open one. -/
theorem Opens.endpoint_ne {before opened : World n} {index : Fin n} {address advertise : String}
    {isLeader : Bool} {endpoint : Endpoint} {node : Node}
    (opens : Opens before index address advertise isLeader endpoint node opened)
    {socket : Socket n} (present : socket ∈ before.network.openSockets) :
    socket.endpoint ≠ endpoint := by
  obtain ⟨network, listened, _⟩ := opens.listened
  exact Network.endpoint_ne_of_isTaken (Network.listen_eq_ok listened).1
    (List.mem_of_mem_filter present)

/-- What is open after a member gave up its endpoint. -/
theorem openSockets_closing (world : World n) (index : Fin n) :
    (world.closing index).openSockets = world.network.openSockets.filter fun socket =>
      (world.member index).listener ≠ some socket.endpoint := by
  simp only [closing]
  cases (world.member index).listener with
  | none => exact (List.filter_eq_self.mpr fun _ _ => rfl).symm
  | some endpoint =>
    simp only [Network.openSockets, Network.release, List.filter_filter]
    refine List.filter_congr fun socket _ => ?_
    have same : (socket.endpoint != endpoint) = decide (some endpoint ≠ some socket.endpoint) := by
      rw [Bool.eq_iff_iff, bne_iff_ne, decide_eq_true_eq, ne_eq, ne_eq, Option.some_inj, eq_comm]
    rw [same, Bool.and_comm]

namespace Bound

variable {world after : World n}

theorem of_undisturbed (bound : world.Bound) {probe : Fin n}
    (same : Undisturbed probe world after) : after.Bound := by
  refine ⟨fun index endpoint listens => ?_, fun index endpoint listens => ?_⟩ <;>
    rw [same.listener] at listens <;> rw [same.openSockets_eq]
  · exact bound.opened index endpoint listens
  · exact bound.owned index endpoint listens

/-- A member may listen on an endpoint that was free. -/
theorem opened_by (bound : world.Bound) {opened : World n} {index : Fin n}
    {address advertise : String} {isLeader : Bool} {endpoint : Endpoint} {node : Node}
    (opens : Opens world index address advertise isLeader endpoint node opened)
    (sockets : after.network.openSockets = opened.network.openSockets)
    (listeners : ∀ other, (after.member other).listener = (world.member other).listener ∨
      other = index ∧ (after.member other).listener = some endpoint) : after.Bound := by
  have sockets_eq := sockets.trans opens.openSockets_eq
  refine ⟨fun other place listens => ?_, fun other place listens socket present at_ => ?_⟩
  · rw [sockets_eq]
    rcases listeners other with same | ⟨rfl, new⟩
    · exact List.mem_append_left _ (bound.opened other place (same ▸ listens))
    · obtain rfl := Option.some.inj (new.symm.trans listens)
      exact List.mem_append_right _ (List.mem_singleton_self _)
  · rw [sockets_eq] at present
    rcases listeners other with same | ⟨rfl, new⟩
    · have before := bound.opened other place (same ▸ listens)
      rcases List.mem_append.mp present with old | last
      · exact bound.owned other place (same ▸ listens) socket old at_
      · rw [List.mem_singleton.mp last] at at_
        exact absurd at_.symm (opens.endpoint_ne before)
    · obtain rfl := Option.some.inj (new.symm.trans listens)
      rcases List.mem_append.mp present with old | last
      · exact absurd at_ (opens.endpoint_ne old)
      · rw [List.mem_singleton.mp last]

/-- The endpoint that a member gives up is nobody else's. -/
theorem endpoint_ne (bound : world.Bound) {index : Fin n} {socket : Socket n}
    (present : socket ∈ world.network.openSockets) (other : socket.owner ≠ .member index) :
    (world.member index).listener ≠ some socket.endpoint :=
  fun same => other (bound.owned index _ same socket present rfl)

/-- Giving up an endpoint takes nothing away from others. -/
theorem left (bound : world.Bound) (index : Fin n) :
    (({ world with network := world.closing index } : World n).setMember index
      (world.member index).outside).Bound := by
  refine ⟨fun other endpoint listens => ?_, fun other endpoint listens socket present => ?_⟩ <;>
    rw [member_setMember] at listens <;> split at listens
  · cases listens
  next apart =>
    change _ ∈ (world.closing index).openSockets
    rw [openSockets_closing]
    have opened := bound.opened other endpoint listens
    refine List.mem_filter.mpr ⟨opened, decide_eq_true (bound.endpoint_ne opened ?_)⟩
    exact fun same => apart (Owner.member.inj same)
  · cases listens
  next apart =>
    change socket ∈ (world.closing index).openSockets at present
    rw [openSockets_closing] at present
    exact bound.owned other endpoint listens socket (List.mem_of_mem_filter present)

end Bound

end World

end SwarmManager
