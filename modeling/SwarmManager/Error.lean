import SwarmManager.Json.Codec

/-!
# Errors

Every request that fails names its cause.  A cause has a status for clients that
speak HTTP and a message.
-/

namespace SwarmManager

set_option autoImplicit false

/-- Why the system refuses an address or a file. -/
inductive SystemFailure where
  /-- The address cannot be listened on. -/
  | cannotListen
  | fileMissing
  /-- The file holds bytes that are no text. -/
  | fileNotText
  deriving DecidableEq

/-- Why a request fails. -/
inductive Error where
  | alreadyInSwarm
  | notInSwarm
  | noNodes
  | nameConflict (name : String)
  | serviceNotFound (asked : String)
  | taskNotFound (asked : String)
  | nodeNotFound (asked : String)
  | instanceNotFound (asked : String)
  | invalidArgument (reason : String)
  | peerUnreachable (peer : String)
  | unexpectedPeerResponse (peer : String) (status : Nat)
  | json (fault : Json.Fault)
  | system (failure : SystemFailure)
  | configuration (reason : String)
  deriving DecidableEq

namespace SystemFailure

/-- The text of a failure. -/
def message : SystemFailure → String
  | .cannotListen => "cannot listen on the address"
  | .fileMissing => "no such file"
  | .fileNotText => "the file is no text"

end SystemFailure

namespace Error

/-- The HTTP status that a client is answered with. -/
def status : Error → Nat
  | .alreadyInSwarm | .notInSwarm | .noNodes => 406
  | .nameConflict _ => 409
  | .serviceNotFound _ | .taskNotFound _ | .nodeNotFound _ | .instanceNotFound _ => 404
  | .invalidArgument _ => 400
  | .peerUnreachable _ | .unexpectedPeerResponse _ _ | .json _ | .system _ | .configuration _ => 500

/-- The text of an error. -/
def message : Error → String
  | .alreadyInSwarm => "This node is already part of a swarm"
  | .notInSwarm => "This node is not part of a swarm"
  | .noNodes => "No swarm nodes available"
  | .nameConflict name => "There's already a service with this name: " ++ name
  | .serviceNotFound asked => "Service not found: " ++ asked
  | .taskNotFound asked => "Task not found: " ++ asked
  | .nodeNotFound asked => "Node not found: " ++ asked
  | .instanceNotFound asked => "Container not found: " ++ asked
  | .invalidArgument reason => "Invalid argument: " ++ reason
  | .peerUnreachable peer => "Peer " ++ peer ++ " unreachable: no connection"
  | .unexpectedPeerResponse peer status =>
      "Unexpected status code in updatenodes from " ++ peer ++ ": " ++ Decimal.text status
  | .json fault => "JSON error: " ++ fault.message
  | .system failure => "IO error: " ++ failure.message
  | .configuration reason => "Invalid configuration: " ++ reason

/-- No error is reported as a success. -/
theorem status_ne_ok (error : Error) : error.status ≠ 200 := by
  cases error <;> simp [status]

end Error

end SwarmManager
