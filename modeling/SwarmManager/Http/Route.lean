import SwarmManager.Text.Percent

/-!
# Routes of the API

A path is cut at its slashes into segments, and the segments name a route.  A
segment in the place of an identifier is taken as it is and decoded later; it may
be empty between two others, but not at the end.  A fixed segment wins over an
identifier.
-/

namespace SwarmManager.Http

set_option autoImplicit false

/-- What a path names. -/
inductive Route where
  | ping
  | version
  | swarm
  | swarmInit
  | swarmJoin
  | swarmLeave
  | services
  | serviceCreate
  | service (id : String)
  | serviceUpdate (id : String)
  | tasks
  | task (id : String)
  | nodes
  | node (id : String)
  | nodeUpdate (id : String)
  | containers
  | container (id : String)
  deriving DecidableEq

namespace Route

/-- A route whose path ends in an identifier. -/
def ending (route : String → Route) (id : String) : Option Route :=
  if id.isEmpty then none else some (route id)

/-- The route that segments name. -/
def ofSegments : List String → Option Route
  | ["_ping"] => some ping
  | ["version"] => some version
  | ["swarm"] => some swarm
  | ["swarm", "init"] => some swarmInit
  | ["swarm", "join"] => some swarmJoin
  | ["swarm", "leave"] => some swarmLeave
  | ["services"] => some services
  | ["services", "create"] => some serviceCreate
  | ["services", id] => ending service id
  | ["services", id, "update"] => some (serviceUpdate id)
  | ["tasks"] => some tasks
  | ["tasks", id] => ending task id
  | ["nodes"] => some nodes
  | ["nodes", id] => ending node id
  | ["nodes", id, "update"] => some (nodeUpdate id)
  | ["containers", "json"] => some containers
  | ["containers", id, "json"] => some (container id)
  | _ => none

/-- The route of a path. -/
def ofPath (path : String) : Option Route :=
  match path.toList with
  | '/' :: rest => ofSegments ((Text.splitAll '/' rest).map String.ofList)
  | _ => none

/-- The methods a route is for, `HEAD` apart. -/
def methods : Route → List String
  | .ping | .version | .swarm | .services | .tasks | .task _ | .nodes | .containers
  | .container _ => ["GET"]
  | .swarmInit | .swarmJoin | .swarmLeave | .serviceCreate | .serviceUpdate _
  | .nodeUpdate _ => ["POST"]
  | .service _ | .node _ => ["GET", "DELETE"]

/-- Whether a route answers a method.  Whatever answers `GET` answers `HEAD`. -/
def answers (route : Route) (method : String) : Bool :=
  route.methods.contains method || (method == "HEAD" && route.methods.contains "GET")

end Route

end SwarmManager.Http
