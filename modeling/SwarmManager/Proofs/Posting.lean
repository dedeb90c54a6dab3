import SwarmManager.Http.PeerEndpoint
import SwarmManager.Proofs.Actions
import SwarmManager.Proofs.WireFormat

/-!
# Posted operations

A member that is contacted is handed the operation as it is, and hands back its registry
(`World.contact`).  On the wire there is a request with the text of the operation, which is
posted to the endpoint for peers, and a response with the text of the registry.  Both texts are
read as what was written, so that makes no difference: `World.contact_eq_post`.
-/

namespace SwarmManager

set_option autoImplicit false

variable {n : Nat}

/-! ## Requests and replies -/

/-- The request in which an operation is posted to a target. -/
def Http.Request.posting (target : Http.Target) (delivery : Delivery) (operation : NodeOperation) :
    Http.Request :=
  ⟨"POST", target.asking delivery, (NodeOperation.codec.toText operation).toUTF8⟩

namespace Http.PeerEndpoint

variable (target : Target) (delivery : Delivery) (operation : NodeOperation)

theorem body_posting : (Request.posting target delivery operation).body =
    (NodeOperation.codec.toText operation).toUTF8 := by
  rw [Request.posting]

/-- A request is refused for its length if the text of its operation is too long. -/
theorem accept_posting :
    let request := Request.posting target delivery operation
    accept request.method request.target (maxBody < request.body.size) =
      accept "POST" (target.asking delivery) operation.isTooLong := by
  have bytes (text : String) : text.toUTF8.size = text.utf8ByteSize := rfl
  refine congrArg (accept "POST" (target.asking delivery)) (Bool.eq_iff_iff.mpr ?_)
  rw [decide_eq_true_eq, body_posting, bytes, NodeOperation.isTooLong, Json.Value.exceeds_iff,
    Json.Codec.toText]

/-- The body of a request is read as the operation that was posted. -/
theorem ofBytes_posting :
    (NodeOperation.codec.ofBytes (Request.posting target delivery operation).body).mapError
      Error.json = .ok operation := by
  have read := (NodeOperation.codec_faithful.losesNothing.toText operation).2
  rw [body_posting, read]
  rfl

end Http.PeerEndpoint

namespace World

/-- Post a request to a member and make sense of its response. -/
def post (waiting : Option (Fin n)) (peer : String) (index : Fin n) (request : Http.Request) :
    Action n (List Node) := do
  let response ← Http.PeerEndpoint.answerWhile waiting index request
  found (readReply peer ⟨response.status, response.content.asText⟩)

/-- A reply of another status than 200 is told by its status. -/
theorem readReply_of_status (peer : String) {status : Nat} (other : status ≠ 200) (body : String) :
    readReply peer ⟨status, body⟩ = .error (.unexpectedPeerResponse peer status) := by
  rw [readReply, if_pos other]

/-- A registry that a member answers with is read as it is. -/
theorem readReply_ofValue (peer : String) (nodes : List Node) :
    readReply peer ⟨200, (nodeListCodec.encode nodes).text⟩ = .ok nodes := by
  have read : nodeListCodec.ofText (nodeListCodec.encode nodes).text = .ok nodes :=
    ((Json.Codec.Faithful.list Node.codec_faithful).losesNothing.toText nodes).1
  rw [readReply, if_neg (fun other => other rfl)]
  exact congrArg _ read

/-! ## Contacts -/

/-- **Members are contacted as over HTTP.**  An operation that is sent to a member runs as if it
was posted to the endpoint of the member, with the delivery in the query behind what the address
has there, and as if the response was read, whatever that is. -/
theorem contact_eq_post (waiting : Option (Fin n)) (peer : String) (delivery : Delivery)
    (operation : NodeOperation) {world : World n} {index : Fin n} {target : Http.Target}
    (reached : world.network.reach peer = some (.member index, target)) :
    (contact waiting (fun index asked => handle waiting index operation asked) peer delivery
      operation).run.run world =
      (post waiting peer index (.posting target delivery operation)).run.run world := by
  simp only [contact, post, Http.PeerEndpoint.answerWhile, Http.PeerEndpoint.accept_posting,
    run_bind, run_get, reached]
  cases accepted :
    Http.PeerEndpoint.accept "POST" (target.asking delivery) operation.isTooLong with
  | error response =>
    have refused := readReply_of_status peer (Http.PeerEndpoint.status_ne_of_accept accepted)
    simp only [run_pure, refused]
    rfl
  | ok asked =>
    simp only [Http.PeerEndpoint.answerBody, Http.PeerEndpoint.applyBody, run_tryCatch, run_bind,
      Http.PeerEndpoint.ofBytes_posting, run_found_ok]
    by_cases waits : waiting = some index
    · simp only [if_pos waits, run_bind, run_throw]
    · simp only [if_neg waits, relay, run_tryCatch, run_bind]
      rcases (handle waiting index operation asked).run.run world with
        ⟨(error | _) | nodes, next⟩
      · have refused := readReply_of_status peer (show 500 ≠ 200 by decide) error.message
        simp only [run_pure, run_found, Http.Response.ofText, Http.Content.asText, refused]
        rfl
      · rfl
      · simp only [run_pure, run_found, Http.Response.ofValue, Http.Content.asText,
          readReply_ofValue]
        rfl

end World

end SwarmManager
