import SwarmManager.World.Lifecycle
import SwarmManager.World.Nodes
import SwarmManager.Proofs.Services

/-!
# How requests about swarms and nodes run

Entering a swarm, leaving it and changing a node are composed of a few steps: listen,
draw, send to peers, change the own state.  Each request is given here as one
equation between its run and the runs of what it sends (`run_initCluster`,
`run_joinCluster`, `run_leaveCluster`, `run_updateNode`, `run_deleteNode`).  What a
member shows of itself to its peers is `Member.asNode`.
-/

namespace SwarmManager

set_option autoImplicit false

variable {n : Nat}

/-! ## Members in a world -/

namespace World

@[simp] theorem member_setMember_self (world : World n) (index : Fin n) (member : Member) :
    (world.setMember index member).member index = member := by
  rw [member_setMember, if_pos rfl]

theorem member_setMember_of_ne (world : World n) {index probe : Fin n} (apart : probe ≠ index)
    (member : Member) : (world.setMember index member).member probe = world.member probe := by
  rw [member_setMember, if_neg apart]

@[simp] theorem network_setMember (world : World n) (index : Fin n) (member : Member) :
    (world.setMember index member).network = world.network := rfl

@[simp] theorem member_withNetwork (world : World n) (network : Network n) (index : Fin n) :
    ({ world with network := network } : World n).member index = world.member index := rfl

end World

/-! ## Listening -/

theorem Endpoint.conflicts_self (endpoint : Endpoint) : endpoint.conflicts endpoint = true := by
  simp [conflicts, HostAddress.overlaps_self]

namespace Network

variable {network : Network n} {endpoint : Endpoint}

/-- Nobody listens on an endpoint that is not taken. -/
theorem endpoint_ne_of_isTaken (free : network.isTaken endpoint = false) {socket : Socket n}
    (present : socket ∈ network.sockets) : socket.endpoint ≠ endpoint := by
  rintro rfl
  have taken : network.isTaken socket.endpoint = true :=
    List.any_eq_true.mpr ⟨socket, present, Endpoint.conflicts_self _⟩
  exact Bool.false_ne_true (free.symm.trans taken)

/-- Listening opens a socket on an endpoint that was free. -/
theorem listen_eq_ok {host : String} {port : Option UInt16} {owner : Owner n}
    {after : Network n} (listened : network.listen host port owner = .ok (endpoint, after)) :
    network.isTaken endpoint = false ∧
      ∃ portsChosen, after = { network.opened endpoint owner with portsChosen := portsChosen } := by
  simp only [listen] at listened
  split at listened
  next => cases listened
  next opened portsChosen bound =>
    obtain ⟨rfl, rfl⟩ := Prod.mk.inj (Except.ok.inj listened)
    exact ⟨(System.listen_eq_some bound).2.1, portsChosen, rfl⟩

/-- Listening fails for one reason only. -/
theorem listen_eq_error {host : String} {port : Option UInt16} {owner : Owner n} {error : Error}
    (refused : network.listen host port owner = .error error) : error = .system .cannotListen := by
  simp only [listen] at refused
  split at refused
  · exact (Except.error.inj refused).symm
  · cases refused

end Network

/-! ## Entering and leaving -/

namespace Member

/-- A member as its peers see it, advertised at the host and port of a text, and in
place of missing ones at the configured host and the port of its endpoint. -/
def asNode (member : Member) (advertise : String) (endpoint : Endpoint) (isLeader : Bool) : Node :=
  let (advertisedHost, advertisedPort) := Address.splitHostPort advertise
  let host := if advertisedHost.isEmpty then member.settings.advertiseHost else advertisedHost
  let address := Address.join host (advertisedPort.getD endpoint.port)
  Node.manager member.supply.next member.machine address host isLeader

/-- A member in a new swarm of its own identity, with the nodes it knows. -/
def entered (member : Member) (endpoint : Endpoint) (nodeId : String) (nodes : List Node) :
    Member :=
  { member.drew 3 with
    swarm := some (Swarm.create member.supply).1
    nodeId := some nodeId
    nodes := nodes
    listener := some endpoint }

/-- A member that forgot its swarm. -/
def outside (member : Member) : Member :=
  { member with swarm := none, nodeId := none, nodes := [], listener := none }

end Member

namespace World

/-- A world in which a member just opened its peer endpoint and drew its node. -/
def listening (world : World n) (index : Fin n) (network : Network n) : World n :=
  ({ world with network := network } : World n).setMember index ((world.member index).drew 1)

/-- When one member draws, all others draw nothing. -/
theorem member_setMember_drew (world : World n) (index : Fin n) (count : Nat) (other : Fin n) :
    ∃ taken, (world.setMember index ((world.member index).drew count)).member other =
      (world.member other).drew taken := by
  by_cases here : other = index
  · rw [here, member_setMember_self]
    exact ⟨count, rfl⟩
  · rw [member_setMember_of_ne _ here]
    exact ⟨0, rfl⟩

/-- How a member listens that is asked to listen at an address. -/
def listen (world : World n) (index : Fin n) (address : String) :
    Except Error (Endpoint × Network n) :=
  world.network.listen (world.member index).settings.peerHost (Address.splitHostPort address).2
    (.member index)

variable (world : World n) (index : Fin n)

theorem run_openEndpoint (address : String) :
    (openEndpoint index (Address.splitHostPort address).2).run.run world =
      match world.listen index address with
      | .error error => (.error (.failed error), world)
      | .ok (endpoint, network) => (.ok endpoint, { world with network := network }) := by
  simp only [openEndpoint, run_bind, run_get, run_found, listen]
  cases world.network.listen (world.member index).settings.peerHost
    (Address.splitHostPort address).2 (.member index) <;> rfl

theorem run_startNode (address advertise : String) (isLeader : Bool) :
    (startNode index address advertise isLeader).run.run world =
      match world.listen index address with
      | .error error => (.error (.failed error), world)
      | .ok (endpoint, network) =>
        (.ok (endpoint, (world.member index).asNode advertise endpoint isLeader),
          world.listening index network) := by
  simp only [startNode, run_bind, run_openEndpoint]
  cases world.listen index address with
  | error error => rfl
  | ok opened =>
    obtain ⟨endpoint, network⟩ := opened
    simp only [run_look, run_act, Member.run_draw, Except.mapError, member_withNetwork]
    rfl

theorem run_ensureOutside :
    (ensureOutside index).run.run world =
      if (world.member index).swarm.isSome then (.error (.failed .alreadyInSwarm), world)
      else (.ok ⟨⟩, world) := by
  simp only [ensureOutside, run_bind, run_look]
  split <;> rfl

theorem run_enter (endpoint : Endpoint) (nodeId : String) (nodes : List Node) :
    (enter index endpoint nodeId nodes).run.run world =
      (.ok ⟨⟩, world.setMember index ((world.member index).entered endpoint nodeId nodes)) := rfl

/-- Starting a swarm fails unless the member is outside any swarm and can listen. -/
theorem run_initCluster (address advertise : String) :
    (initCluster index address advertise).run.run world =
      if (world.member index).swarm.isSome then (.error (.failed .alreadyInSwarm), world)
      else
        match world.listen index address with
        | .error error => (.error (.failed error), world)
        | .ok (endpoint, network) =>
          let node := (world.member index).asNode advertise endpoint true
          let member := (world.member index).drew 1
          (.ok node.id,
            (world.listening index network).setMember index
              (member.entered endpoint node.id (member.nodes ++ [node]))) := by
  simp only [initCluster, run_bind, run_ensureOutside, run_startNode]
  by_cases inside : (world.member index).swarm.isSome
  · simp only [inside, ↓reduceIte]
  · simp only [inside, Bool.false_eq_true, ↓reduceIte]
    cases world.listen index address with
    | error error => rfl
    | ok opened =>
      simp only [run_look, run_enter, run_pure, listening, member_setMember_self]
      rfl

/-- Joining a swarm fails also if the peer does not answer with a registry, and then
the endpoint is shut again. -/
theorem run_joinCluster (remotes : List String) (address advertise : String) :
    (joinCluster index remotes address advertise).run.run world =
      if (world.member index).swarm.isSome then (.error (.failed .alreadyInSwarm), world)
      else
        match remotes with
        | [] =>
          (.error (.failed (.invalidArgument "at least one remote address is required")), world)
        | remote :: _ =>
          match world.listen index address with
          | .error error => (.error (.failed error), world)
          | .ok (endpoint, network) =>
            let node := (world.member index).asNode advertise endpoint false
            match (send (some index) remote (.add node) .propagate).run.run
              (world.listening index network) with
            | (.ok nodes, next) =>
              (.ok ⟨⟩, next.setMember index ((next.member index).entered endpoint node.id nodes))
            | (.error (.failed error), next) =>
              (.error (.failed error), { next with network := next.network.shut endpoint })
            | (.error .stalled, next) => (.error .stalled, next) := by
  simp only [joinCluster, run_bind, run_ensureOutside]
  by_cases inside : (world.member index).swarm.isSome
  · simp only [inside, ↓reduceIte]
  · simp only [inside, Bool.false_eq_true, ↓reduceIte]
    cases remotes with
    | nil => rfl
    | cons remote rest =>
      simp only [run_bind, run_startNode]
      cases world.listen index address with
      | error error => rfl
      | ok opened =>
        obtain ⟨endpoint, network⟩ := opened
        simp only [askToAdd, run_tryCatch]
        rcases (send (some index) remote
          (.add ((world.member index).asNode advertise endpoint false)) .propagate).run.run
            (world.listening index network) with ⟨(error | _) | nodes, next⟩ <;> rfl

/-- The network when a member has closed its endpoint, if it has one. -/
def closing : Network n :=
  match (world.member index).listener with
  | some endpoint => world.network.release endpoint
  | none => world.network

/-- Leaving closes the endpoint and fails only outside any swarm. -/
theorem run_leaveCluster :
    (leaveCluster index).run.run world =
      if (world.member index).swarm.isSome then
        (.ok ⟨⟩, ({ world with network := world.closing index } : World n).setMember index
          (world.member index).outside)
      else (.error (.failed .notInSwarm), world) := by
  simp only [leaveCluster, run_bind, run_look, run_found, Member.inspectSwarm, closing]
  cases (world.member index).swarm with
  | none => rfl
  | some swarm =>
    cases (world.member index).listener <;> rfl

/-! ## Changing nodes -/

theorem run_receive (operation : NodeOperation) :
    (receive index operation).run.run world =
      (.ok (operation.apply (world.member index).nodes),
        world.setMember index
          { world.member index with nodes := operation.apply (world.member index).nodes }) := by
  simp only [receive, run_bind, run_change, run_look, run_pure, member_setMember_self]

/-- A member applies an operation after it was announced to all its peers. -/
theorem run_spread (operation : NodeOperation) :
    (spread index operation).run.run world =
      match (announce (some index) operation (world.member index).nodeId
        (world.member index).nodes).run.run world with
      | (.ok _, next) =>
        (.ok ⟨⟩, next.setMember index
          { next.member index with nodes := operation.apply (next.member index).nodes })
      | (.error halt, next) => (.error halt, next) := by
  simp only [spread, run_bind, run_look]
  rcases (announce (some index) operation (world.member index).nodeId
    (world.member index).nodes).run.run world with ⟨halt | _, next⟩
  · rfl
  · simp only [run_receive, run_pure]

/-- Updating a node draws an instant and spreads the node. -/
theorem run_updateNode (id : String) (spec : NodeSpec) :
    (updateNode index id spec).run.run world =
      match (world.member index).inspectNode id with
      | .error error => (.error (.failed error), world)
      | .ok node =>
        let updated := node.withSpec spec (world.member index).supply.next.instant
        match (spread index (.update updated)).run.run
          (world.setMember index ((world.member index).drew 1)) with
        | (.ok _, next) => (.ok updated, next)
        | (.error halt, next) => (.error halt, next) := by
  simp only [updateNode, run_bind, run_look, run_found]
  cases (world.member index).inspectNode id with
  | error error => rfl
  | ok node =>
    simp only [Except.mapError, run_act, Member.run_draw]
    rcases (spread index (.update (node.withSpec spec
      (world.member index).supply.next.instant))).run.run
        (world.setMember index ((world.member index).drew 1)) with ⟨halt | _, next⟩ <;> rfl

theorem run_deleteNode (id : String) :
    (deleteNode index id).run.run world =
      match (world.member index).inspectNode id with
      | .error error => (.error (.failed error), world)
      | .ok node => (spread index (.delete node)).run.run world := by
  simp only [deleteNode, run_bind, run_look, run_found]
  cases (world.member index).inspectNode id <;> rfl

end World

end SwarmManager
