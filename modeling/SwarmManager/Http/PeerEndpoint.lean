import SwarmManager.World.Fanout

/-!
# The endpoint for peers

Peers post node operations to one path.  The query says how the operation is to
be delivered, and the response holds the node registry after it.  Whatever fails
once the request is accepted is answered with the status 500.
-/

namespace SwarmManager.Http.PeerEndpoint

set_option autoImplicit false

variable {n : Nat}

/-- Apply the operation in a body.  The member that is `waiting` serves nobody. -/
def applyBody (waiting : Option (Fin n)) (index : Fin n) (delivery : Delivery) (body : ByteArray) :
    World.Action n Response := do
  let operation ← World.found (NodeOperation.codec.ofBytes body |>.mapError Error.json)
  if waiting = some index then throw .stalled
  let nodes ← World.handle waiting index operation delivery
  return .ofValue (World.nodeListCodec.encode nodes)

/-- What a member answers to an operation in a body. -/
def answerBody (waiting : Option (Fin n)) (index : Fin n) (delivery : Delivery)
    (body : ByteArray) : World.Action n Response :=
  tryCatch (applyBody waiting index delivery body) fun halt =>
    match halt with
    | .failed error => return .ofText 500 error.message
    | .stalled => throw .stalled

/-- What a member answers to a request of a peer, while one may be waiting. -/
def answerWhile (waiting : Option (Fin n)) (index : Fin n) (request : Request) :
    World.Action n Response :=
  match accept request.method request.target (maxBody < request.body.size) with
  | .error response => return response
  | .ok delivery => answerBody waiting index delivery request.body

/-- What a member answers to a request of a peer. -/
def answer (index : Fin n) (request : Request) : World.Action n Response :=
  answerWhile none index request

end SwarmManager.Http.PeerEndpoint
