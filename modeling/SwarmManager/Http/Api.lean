import SwarmManager.Http.Bodies
import SwarmManager.Http.Message
import SwarmManager.Http.Route
import SwarmManager.World.Command

/-!
# The API for clients

A request to the API is first read, without looking at any member: it is either
answered at once, or it stands for a command.  The command is then carried out,
and its answer or its error becomes the response.

Reading goes from the route over the method, the identifier in the path and the
query to the body, and the first of these that is wrong decides the response.
-/

namespace SwarmManager.Http

set_option autoImplicit false

/-- What a request stands for. -/
inductive Meaning where
  | response (response : Response)
  | version
  /-- A command whose answer is the content of the response. -/
  | command (command : Command)
  /-- A command whose answer is not shown. -/
  | silent (command : Command)

namespace Meaning

/-- What a request means with the identifier in a path segment. -/
def withId (segment : String) (meaning : String → Meaning) : Meaning :=
  match Percent.decodeSegment? segment with
  | some id => meaning id
  | none => .response .refusal

/-- What a request means with the filters in its query. -/
def withFilters (request : Request) (meaning : Filters → Meaning) : Meaning :=
  match Percent.formValue? request.target.query "filters" with
  | some raw => meaning (Filters.parse raw)
  | none => .response .refusal

/-- What a request means with its body, unless that is too long. -/
def withBytes (request : Request) (meaning : ByteArray → Meaning) : Meaning :=
  if maxBody < request.body.size then .response .tooLong else meaning request.body

/-- What a request means with the value in its body. -/
def withBody {α : Type} (codec : Json.Codec α) (request : Request) (meaning : α → Meaning) :
    Meaning :=
  withBytes request fun bytes =>
    match codec.ofBytes bytes with
    | .ok value => meaning value
    | .error fault => .response (.ofError (.json fault))

/-- What a request to start a swarm means.  A blank body asks for nothing
special. -/
def ofInit (request : Request) : Meaning :=
  let meaning := fun (wish : InitRequest) =>
    Meaning.command (.initCluster wish.listenAddress wish.advertiseAddress)
  withBytes request fun bytes =>
    if bytes.toList.all Text.isAsciiBlank then meaning {}
    else withBody InitRequest.codec request meaning

/-- What a request to a route means whose method the route is for. -/
def ofRoute (request : Request) : Route → Meaning
  | .ping => .response (.ofText 200 "OK")
  | .version => .version
  | .swarm => .command .inspectSwarm
  | .swarmInit => ofInit request
  | .swarmJoin =>
      withBody JoinRequest.codec request fun wish =>
        .command (.joinCluster wish.remoteAddresses wish.listenAddress wish.advertiseAddress)
  | .swarmLeave => .command .leaveCluster
  | .services => withFilters request fun filters => .command (.listServices filters)
  | .serviceCreate =>
      withBody ServiceSpec.codec request fun spec => .command (.createService spec)
  | .service segment =>
      withId segment fun asked =>
        if request.method = "DELETE" then .command (.deleteService asked)
        else .command (.inspectService asked)
  | .serviceUpdate segment =>
      withId segment fun asked =>
        withBody ServiceSpec.codec request fun spec => .command (.updateService asked spec)
  | .tasks => withFilters request fun filters => .command (.listTasks filters)
  | .task segment => withId segment fun id => .command (.inspectTask id)
  | .nodes => .command .listNodes
  | .node segment =>
      withId segment fun id =>
        if request.method = "DELETE" then .command (.deleteNode id)
        else .command (.inspectNode id)
  | .nodeUpdate segment =>
      withId segment fun id =>
        withBody NodeSpec.codec request fun spec => .silent (.updateNode id spec)
  | .containers => .command .listInstances
  | .container segment => withId segment fun asked => .command (.inspectInstance asked)

/-- What a request means. -/
def ofRequest (request : Request) : Meaning :=
  match Route.ofPath request.target.path with
  | none => .response (.bare 404)
  | some route =>
      if route.answers request.method then ofRoute request route else .response (.bare 405)

end Meaning

/-! ## Carrying out -/

/-- The version of the API. -/
def apiVersion : String := "1.43"

/-- The version of this program. -/
def programVersion : String := "0.1.0"

/-- What a member says of its version and its machine. -/
def versionValue (machine : Machine) : Json.Value :=
  .ofMembers
    [("Version", .ofText programVersion), ("ApiVersion", .ofText apiVersion),
      ("Os", .ofText machine.platform.operatingSystem),
      ("Arch", .ofText machine.platform.architecture)]

namespace Response

/-- The response that shows an answer. -/
def ofAnswer (answer : Answer) : Response :=
  match answer.encode? with
  | some value => ofValue value
  | none => bare 200

end Response

variable {n : Nat}

/-- The response to an action: a failure is answered with its status and text. -/
def respond (action : World.Action n Response) : World.Action n Response :=
  tryCatch action fun halt =>
    match halt with
    | .failed error => return .ofError error
    | .stalled => throw .stalled

/-- What a member answers to a request of some meaning. -/
def answerMeaning (index : Fin n) : Meaning → World.Action n Response
  | .response response => return response
  | .version => return .ofValue (versionValue (← World.look index).machine)
  | .command command => respond do return .ofAnswer (← World.perform index command)
  | .silent command =>
      respond do
        let _ ← World.perform index command
        return .bare 200

/-- What a member answers to a request of a client. -/
def answer (index : Fin n) (request : Request) : World.Action n Response := do
  let response ← answerMeaning index (Meaning.ofRequest request)
  return if request.method = "HEAD" then response.head else response

end SwarmManager.Http
