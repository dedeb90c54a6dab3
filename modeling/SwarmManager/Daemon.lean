import SwarmManager.Http.Api

/-!
# Daemons

A daemon serves the API of one member on the address its settings name.  When it
is told to stop, the member leaves its swarm if it is in one.
-/

namespace SwarmManager.Daemon

set_option autoImplicit false

/-- The endpoint that the API is served on.  Its address has to name a host and a port,
which may be zero. -/
def listen (system : System) (settings : Settings) : Except Error Endpoint :=
  let bound := do
    let (host, port) ← Text.splitAtLast ':' settings.apiAddress
    system.listen host (← Address.anyPort? port) (fun _ => false) 0
  match bound with
  | some (endpoint, _) => .ok endpoint
  | none => .error (.system .cannotListen)

/-- Send a request to a daemon, and see its response unless the request or the
response is lost. -/
def exchange (request : Http.Request) (world : World 1) :
    Option (Except Halt Http.Response) × World 1 :=
  let sent := { world with network := world.network.advanceFate }
  match world.network.fates.next with
  | .requestLost => (none, sent)
  | .replyLost => (none, (sent.step (Http.answer 0 request)).2)
  | .delivered =>
      let (outcome, after) := sent.step (Http.answer 0 request)
      (some outcome, after)

/-- Stop a daemon. -/
def stop : World.Action 1 Unit := do
  if (← World.look 0).nodeId.isSome then World.leaveCluster 0

end SwarmManager.Daemon
