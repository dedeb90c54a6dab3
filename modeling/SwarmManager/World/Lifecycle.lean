import SwarmManager.World.Fanout

/-!
# Entering and leaving a swarm

A member outside any swarm starts one, of which it is the leader, or joins one
through the address of a peer.  Either way it first opens its peer endpoint; if
joining fails afterwards, the endpoint is shut again.  Leaving closes the
endpoint and forgets the nodes, but not the services and tasks.
-/

namespace SwarmManager.World

set_option autoImplicit false

variable {n : Nat}

/-- Open the peer endpoint of a member. -/
def openEndpoint (index : Fin n) (port : Option UInt16) : Action n Endpoint := do
  let world ← get
  let peerHost := (world.member index).settings.peerHost
  let (endpoint, network) ← found (world.network.listen peerHost port (.member index))
  set { world with network := network }
  return endpoint

/-- Open the peer endpoint of a member and describe the member as a node.  The
node is advertised at the host and port of `advertise`, and in place of missing
ones at the configured host and the port of the endpoint. -/
def startNode (index : Fin n) (listen advertise : String) (isLeader : Bool) :
    Action n (Endpoint × Node) := do
  let endpoint ← openEndpoint index (Address.splitHostPort listen).2
  let member ← look index
  let (advertisedHost, advertisedPort) := Address.splitHostPort advertise
  let host := if advertisedHost.isEmpty then member.settings.advertiseHost else advertisedHost
  let address := Address.join host (advertisedPort.getD endpoint.port)
  let draw ← act index Member.draw
  return (endpoint, Node.manager draw member.machine address host isLeader)

/-- Put a member into a swarm of its own identity, with the nodes it knows. -/
def enter (index : Fin n) (endpoint : Endpoint) (nodeId : String) (nodes : List Node) :
    Action n Unit :=
  change index fun member =>
    let (swarm, supply) := Swarm.create member.supply
    { member with
      swarm := some swarm
      nodeId := some nodeId
      nodes := nodes
      listener := some endpoint
      supply := supply }

/-- Fail unless a member is outside any swarm. -/
def ensureOutside (index : Fin n) : Action n Unit := do
  if (← look index).swarm.isSome then fail .alreadyInSwarm

/-- Start a swarm and give the identifier of its first node. -/
def initCluster (index : Fin n) (listen advertise : String) : Action n String := do
  ensureOutside index
  let (endpoint, node) ← startNode index listen advertise true
  let nodes := (NodeOperation.add node).apply (← look index).nodes
  enter index endpoint node.id nodes
  return node.id

/-- Ask the peer at an address to add a node.  If that fails, the endpoint of the
node is shut. -/
def askToAdd (index : Fin n) (remote : String) (endpoint : Endpoint) (node : Node) :
    Action n (List Node) :=
  tryCatch (send (some index) remote (.add node) .propagate) fun halt => do
    match halt with
    | .failed error =>
        modify fun world => { world with network := world.network.shut endpoint }
        fail error
    | .stalled => throw .stalled

/-- Join the swarm of the peer at the first of some addresses. -/
def joinCluster (index : Fin n) (remotes : List String) (listen advertise : String) :
    Action n Unit := do
  ensureOutside index
  match remotes with
  | [] => fail (.invalidArgument "at least one remote address is required")
  | remote :: _ =>
      let (endpoint, node) ← startNode index listen advertise false
      let nodes ← askToAdd index remote endpoint node
      enter index endpoint node.id nodes

/-- Leave the swarm. -/
def leaveCluster (index : Fin n) : Action n Unit := do
  let member ← look index
  let _ ← found member.inspectSwarm
  match member.listener with
  | some endpoint => modify fun world => { world with network := world.network.release endpoint }
  | none => pure ()
  change index fun member =>
    { member with swarm := none, nodeId := none, nodes := [], listener := none }

end SwarmManager.World
