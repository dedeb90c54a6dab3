import SwarmManager.Http.PeerRequest
import SwarmManager.World.Basic

/-!
# Sending operations to peers

An operation travels at most two hops.  Who is sent it to be passed on announces
it to every other member as a terminal delivery, one after the other, applies it
and answers with its registry; who is sent it as a terminal delivery only applies
it and answers.

A peer is contacted by its address.  It may be out of reach, answer with a status
other than 200, or answer with something that is no list of nodes; each ends an
announcement, and the peers contacted before keep the change.  So does a peer
whose reply is lost.

A member that is contacted is asked what it is asked over HTTP, and may refuse it.
What it does not refuse is handed to it, and its registry to who contacted it,
without writing them down and reading them again.
-/

namespace SwarmManager.World

set_option autoImplicit false

variable {n : Nat}

/-- A list of nodes, as a member answers. -/
def nodeListCodec : Json.Codec (List Node) := .list Node.codec

/-- Apply an operation to the registry of a member, which answers with it. -/
def receive (index : Fin n) (operation : NodeOperation) : Action n (List Node) := do
  change index fun member => { member with nodes := operation.apply member.nodes }
  return (← look index).nodes

/-- What the sender of an operation makes of the reply. -/
def readReply (peer : String) (reply : Reply) : Except Error (List Node) :=
  if reply.status ≠ 200 then .error (.unexpectedPeerResponse peer reply.status)
  else (nodeListCodec.ofText reply.body).mapError Error.json

/-- Let an outsider answer from its script. -/
def consult (peer : String) (outsider : Nat) (received : Received) : Action n (List Node) := do
  let world ← get
  match world.network.outsiders[outsider]? with
  | none => fail (.peerUnreachable peer)
  | some scripted =>
      let (reply, after) := scripted.answer received
      set { world with
        network :=
          { world.network with outsiders := world.network.outsiders.set outsider after } }
      match reply with
      | none => fail (.peerUnreachable peer)
      | some reply => found (readReply peer reply)

/-- The answer of a member to the sender.  Whatever fails at the member, the
sender sees the status 500. -/
def relay {α : Type} (peer : String) (answer : Action n α) : Action n α :=
  tryCatch answer fun halt =>
    match halt with
    | .failed _ => fail (.unexpectedPeerResponse peer 500)
    | .stalled => throw .stalled

/-- Meet the fate of the next exchange. -/
def meetFate : Action n Fate := do
  let world ← get
  set { world with network := world.network.advanceFate }
  return world.network.fates.next

/-- Contact a peer without seeing its reply. -/
def unseen {α : Type} (peer : String) (answer : Action n α) : Action n α :=
  tryCatch (do let _ ← answer; fail (.peerUnreachable peer)) fun halt =>
    match halt with
    | .failed _ => fail (.peerUnreachable peer)
    | .stalled => throw .stalled

/-- What a member does with an operation that is to be delivered to it in some way. -/
abbrev Serve (n : Nat) : Type := Fin n → Delivery → Action n (List Node)

/-- Send an operation that arrives to the peer at an address, where `serve` says
what a member does with it.  The member that is `waiting` serves nobody. -/
def contact (waiting : Option (Fin n)) (serve : Serve n) (peer : String)
    (delivery : Delivery) (operation : NodeOperation) : Action n (List Node) := do
  match (← get).network.reach peer with
  | none => fail (.peerUnreachable peer)
  | some (.outsider outsider, target) => consult peer outsider ⟨target.asking delivery, operation⟩
  | some (.member index, target) =>
      match Http.PeerEndpoint.accept "POST" (target.asking delivery) operation.isTooLong with
      | .error response => fail (.unexpectedPeerResponse peer response.status)
      | .ok asked =>
          if waiting = some index then throw .stalled else relay peer (serve index asked)

/-- Send an operation to the peer at an address. -/
def exchange (waiting : Option (Fin n)) (serve : Serve n) (peer : String)
    (delivery : Delivery) (operation : NodeOperation) : Action n (List Node) := do
  match ← meetFate with
  | .delivered => contact waiting serve peer delivery operation
  | .requestLost => fail (.peerUnreachable peer)
  | .replyLost => unseen peer (contact waiting serve peer delivery operation)

/-- Send an operation to be applied only, which is all that a member is asked for. -/
def sendTerminal (waiting : Option (Fin n)) (peer : String) (operation : NodeOperation) :
    Action n (List Node) :=
  exchange waiting (fun index _ => receive index operation) peer .terminal operation

/-- Send an operation, to be applied only, to every node with a peer endpoint but
one's own, one after the other, up to the first failure. -/
def announce (waiting : Option (Fin n)) (operation : NodeOperation) (selfId : Option String) :
    List Node → Action n Unit
  | [] => return ()
  | node :: rest => do
      if selfId ≠ some node.id then
        match node.peerAddress? with
        | none => pure ()
        | some peer => let _ ← sendTerminal waiting peer operation
      announce waiting operation selfId rest

/-- What a member does with an operation it was sent. -/
def handle (waiting : Option (Fin n)) (index : Fin n) (operation : NodeOperation)
    (delivery : Delivery) : Action n (List Node) := do
  if delivery = .propagate then
    let member ← look index
    announce waiting operation member.nodeId member.nodes
  receive index operation

/-- Send an operation. -/
def send (waiting : Option (Fin n)) (peer : String) (operation : NodeOperation)
    (delivery : Delivery) : Action n (List Node) :=
  exchange waiting (fun index asked => handle waiting index operation asked) peer delivery operation

end SwarmManager.World
