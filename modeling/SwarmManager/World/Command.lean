import SwarmManager.Instance.Codec
import SwarmManager.Task.Codec
import SwarmManager.World.Lifecycle
import SwarmManager.World.Nodes

/-!
# Commands

A command is one request to one member, and `perform` carries it out.  A run of a
world is a list of commands, each carried out after the one before has ended; at
the end of a step the network settles.
-/

namespace SwarmManager

set_option autoImplicit false

/-- A request to a member. -/
inductive Command where
  | initCluster (listen advertise : String)
  | joinCluster (remotes : List String) (listen advertise : String)
  | leaveCluster
  | inspectSwarm
  | nodeId
  | peerAddress
  | updateNode (id : String) (spec : NodeSpec)
  | deleteNode (id : String)
  | inspectNode (id : String)
  | listNodes
  | handleOperation (operation : NodeOperation) (delivery : Delivery)
  | createService (spec : ServiceSpec)
  | updateService (asked : String) (spec : ServiceSpec)
  | deleteService (asked : String)
  | inspectService (asked : String)
  | listServices (filters : Filters)
  | inspectTask (id : String)
  | listTasks (filters : Filters)
  | listInstances
  | inspectInstance (asked : String)

/-- What a request is answered with if it does not fail. -/
inductive Answer where
  | done
  | identifier (id : String)
  | ownId (id : Option String)
  | address (endpoint : Option Endpoint)
  | swarm (swarm : Swarm)
  | node (node : Node)
  | nodes (nodes : List Node)
  | service (service : Service)
  | services (services : List Service)
  | task (task : Task)
  | tasks (tasks : List Task)
  | process (process : ProcessInstance)
  | processes (processes : List ProcessInstance)

namespace World

variable {n : Nat}

/-- Carry out a request to a member. -/
def perform (index : Fin n) : Command → Action n Answer
  | .initCluster listen advertise => return .identifier (← initCluster index listen advertise)
  | .joinCluster remotes listen advertise => do
      joinCluster index remotes listen advertise
      return .done
  | .leaveCluster => do
      leaveCluster index
      return .done
  | .inspectSwarm => return .swarm (← found (← look index).inspectSwarm)
  | .nodeId => return .ownId (← look index).nodeId
  | .peerAddress => return .address (← look index).listener
  | .updateNode id spec => return .node (← updateNode index id spec)
  | .deleteNode id => do
      deleteNode index id
      return .done
  | .inspectNode id => return .node (← found ((← look index).inspectNode id))
  | .listNodes => return .nodes (← found (← look index).listNodes)
  | .handleOperation operation delivery => return .nodes (← handle none index operation delivery)
  | .createService spec => return .service (← act index (Member.createService spec))
  | .updateService asked spec => return .service (← act index (Member.updateService asked spec))
  | .deleteService asked => do
      act index (Member.deleteService asked)
      return .done
  | .inspectService asked => return .service (← found ((← look index).inspectService asked))
  | .listServices filters => return .services (← found ((← look index).listServices filters))
  | .inspectTask id => return .task (← found ((← look index).inspectTask id))
  | .listTasks filters => return .tasks (← found ((← look index).listTasks filters))
  | .listInstances => return .processes (← look index).listInstances
  | .inspectInstance asked => return .process (← found ((← look index).inspectInstance asked))

/-- How an action ends, and the world after the network has settled. -/
def step {α : Type} (world : World n) (action : Action n α) : Except Halt α × World n :=
  let (result, after) := action.run.run world
  (result, { after with network := after.network.settle world.network })

/-- The world after a list of requests to members, whether or not they fail. -/
def after (world : World n) (requests : List (Fin n × Command)) : World n :=
  requests.foldl (fun world request => (world.step (perform request.1 request.2)).2) world

end World

namespace Answer

/-- An answer in JSON; none if the request has no value. -/
def encode? : Answer → Option Json.Value
  | .done => none
  | .identifier content => some (Json.Codec.string.encode content)
  | .ownId content => some (Json.Codec.string.optional.encode content)
  | .address content => some (Json.Codec.string.optional.encode (content.map Endpoint.text))
  | .swarm content => some (Swarm.codec.encode content)
  | .node content => some (Node.codec.encode content)
  | .nodes content => some (Node.codec.list.encode content)
  | .service content => some (Service.codec.encode content)
  | .services content => some (Service.codec.list.encode content)
  | .task content => some (Task.codec.encode content)
  | .tasks content => some (Task.codec.list.encode content)
  | .process content => some (ProcessInstance.codec.encode content)
  | .processes content => some (ProcessInstance.codec.list.encode content)

end Answer

end SwarmManager
