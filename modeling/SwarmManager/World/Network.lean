import SwarmManager.Error
import SwarmManager.Membership.Operation
import SwarmManager.World.System

/-!
# The network between members

The network knows who listens where.  Listening on an endpoint opens a socket,
which keeps others from listening there; a socket that is shut is no longer
reached, but keeps its endpoint taken until the network settles.  Which addresses a
host has and which of its ports are bound is up to the system.

Besides members there are outsiders: peers that answer from a script and record
what they were sent.

What becomes of an exchange is given from outside as well.  `Fates` is the sequence of
what becomes of the exchanges to come: each is delivered, or its request is lost,
or only the reply to it is.
-/

namespace SwarmManager

set_option autoImplicit false

/-- Who listens on a socket. -/
inductive Owner (n : Nat) where
  | member (index : Fin n)
  | outsider (index : Nat)
  deriving DecidableEq

/-- An endpoint that is taken. -/
structure Socket (n : Nat) where
  endpoint : Endpoint
  owner : Owner n
  isOpen : Bool
  deriving DecidableEq

/-- An answer in a script. -/
structure Reply where
  status : Nat
  body : String
  deriving DecidableEq

/-- What an outsider was sent: the target of the request, and the operation in its
body. -/
structure Received where
  target : Http.Target
  operation : NodeOperation

/-- A peer that answers from a script, whose last answer repeats. -/
structure Outsider where
  script : List Reply
  received : List Received

/-- What becomes of an exchange with a peer. -/
inductive Fate where
  | delivered
  /-- Nobody receives the request. -/
  | requestLost
  /-- The request is received and carried out, but the sender sees no reply. -/
  | replyLost
  deriving DecidableEq

/-- The fates of exchanges and the number of those already met. -/
structure Fates where
  source : Nat → Fate
  met : Nat

/-- Who listens where. -/
structure Network (n : Nat) where
  system : System
  fates : Fates
  sockets : List (Socket n)
  outsiders : List Outsider
  /-- What the system remembers of the ports it has chosen. -/
  portsChosen : Nat

namespace Fates

/-- The same fate for every exchange. -/
def always (fate : Fate) : Fates := ⟨fun _ => fate, 0⟩

/-- The fate of the next exchange. -/
def next (fates : Fates) : Fate := fates.source fates.met

/-- The fates after an exchange. -/
def advance (fates : Fates) : Fates := { fates with met := fates.met + 1 }

end Fates

namespace Outsider

/-- The answer to one more request, and the outsider after it.  An outsider
without a script says nothing. -/
def answer (outsider : Outsider) (received : Received) : Option Reply × Outsider :=
  let recorded := { outsider with received := outsider.received ++ [received] }
  match outsider.script with
  | [] => (none, recorded)
  | [last] => (some last, recorded)
  | reply :: next :: rest => (some reply, { recorded with script := next :: rest })

end Outsider

namespace Network

variable {n : Nat}

/-- Whether an endpoint cannot be listened on any more. -/
def isTaken (network : Network n) (endpoint : Endpoint) : Bool :=
  network.sockets.any fun socket => socket.endpoint.conflicts endpoint

/-- The network with a socket opened. -/
def opened (network : Network n) (endpoint : Endpoint) (owner : Owner n) : Network n :=
  { network with sockets := network.sockets ++ [⟨endpoint, owner, true⟩] }

/-- Listen on a host and a port, or on any port if none is given. -/
def listen (network : Network n) (host : String) (port : Option UInt16) (owner : Owner n) :
    Except Error (Endpoint × Network n) :=
  match network.system.listen host (port.getD 0) network.isTaken network.portsChosen with
  | none => .error (.system .cannotListen)
  | some (endpoint, portsChosen) =>
      .ok (endpoint, { network.opened endpoint owner with portsChosen := portsChosen })

/-- Stop listening on an endpoint, which stays taken. -/
def shut (network : Network n) (endpoint : Endpoint) : Network n :=
  { network with
    sockets := network.sockets.map fun socket =>
      if socket.endpoint = endpoint then { socket with isOpen := false } else socket }

/-- Stop listening on an endpoint and give it up. -/
def release (network : Network n) (endpoint : Endpoint) : Network n :=
  { network with sockets := network.sockets.filter fun socket => socket.endpoint != endpoint }

/-- Give up the endpoints that were shut in an earlier state of the network. -/
def settle (network earlier : Network n) : Network n :=
  { network with
    sockets := network.sockets.filter fun socket =>
      socket.isOpen || !earlier.sockets.contains socket }

/-- The network after an exchange has met its fate. -/
def advanceFate (network : Network n) : Network n :=
  { network with fates := network.fates.advance }

/-- The endpoint that an address leads to, and the target of requests there. -/
def locate (network : Network n) (address : String) : Option (Endpoint × Http.Target) := do
  let url ← Url.read? (Address.peerUrl address)
  let host ← network.system.called? url.host
  return (⟨host, url.port⟩, url.target)

/-- Whom an address reaches, and the target of requests there. -/
def reach (network : Network n) (address : String) : Option (Owner n × Http.Target) := do
  let (endpoint, target) ← network.locate address
  let socket ← network.sockets.find? fun socket =>
    socket.isOpen && socket.endpoint.takes endpoint
  return (socket.owner, target)

end Network

end SwarmManager
