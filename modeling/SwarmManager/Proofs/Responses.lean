import SwarmManager.Http.Api
import SwarmManager.Http.PeerEndpoint
import SwarmManager.Proofs.Failure
import SwarmManager.Proofs.Start

/-!
# Failed requests change nothing

Over HTTP a request may also be refused before anything is carried out, for its path,
its method, its query or its body.  A response with a status other than 200 says that
nothing was carried out or that it failed (`intact_answer`, `intact_peerAnswer`), so it
leaves the member intact as well.

The main statement is `failure_leaves_intact`, about requests as such and about the
responses of both HTTP endpoints.
-/

namespace SwarmManager

set_option autoImplicit false

variable {n : Nat}

namespace Http

/-! ## What clients ask for -/

/-- Whether only peers ask for something. -/
def isForPeers : Command → Bool
  | .handleOperation _ _ => true
  | _ => false

/-- The meaning is nothing that only peers ask for. -/
def Meaning.ForClients : Meaning → Prop
  | .command asked | .silent asked => isForPeers asked = false
  | .response _ | .version => True

theorem not_callsBack {world : World n} {index : Fin n} {command : Command}
    (forClients : isForPeers command = false) : ¬ world.CallsBack index command := by
  cases command with
  | handleOperation operation delivery => exact absurd forClients (by simp [isForPeers])
  | _ => exact id

namespace Meaning.ForClients

theorem response (response : Response) : (Meaning.response response).ForClients := trivial

theorem withId {segment : String} {meaning : String → Meaning}
    (each : ∀ id, (meaning id).ForClients) :
    (Meaning.withId segment meaning).ForClients := by
  simp only [Meaning.withId]
  split
  · exact each _
  · exact response _

theorem withFilters {request : Request} {meaning : Filters → Meaning}
    (each : ∀ filters, (meaning filters).ForClients) :
    (Meaning.withFilters request meaning).ForClients := by
  simp only [Meaning.withFilters]
  split
  · exact each _
  · exact response _

theorem withBytes {request : Request} {meaning : ByteArray → Meaning}
    (each : ∀ bytes, (meaning bytes).ForClients) :
    (Meaning.withBytes request meaning).ForClients := by
  simp only [Meaning.withBytes]
  split
  · exact response _
  · exact each _

theorem withBody {α : Type} {codec : Json.Codec α} {request : Request} {meaning : α → Meaning}
    (each : ∀ value, (meaning value).ForClients) :
    (Meaning.withBody codec request meaning).ForClients := by
  refine withBytes fun bytes => ?_
  split
  · exact each _
  · exact response _

theorem ofRoute (request : Request) (route : Route) :
    (Meaning.ofRoute request route).ForClients := by
  cases route with
  | ping | version => exact trivial
  | swarm | swarmLeave | nodes | containers => exact rfl
  | swarmInit =>
    simp only [Meaning.ofRoute, Meaning.ofInit]
    refine withBytes fun bytes => ?_
    split
    · exact rfl
    · exact withBody fun wish => rfl
  | swarmJoin => exact withBody fun wish => rfl
  | services | tasks =>
    simp only [Meaning.ofRoute]
    exact withFilters fun filters => rfl
  | serviceCreate => exact withBody fun spec => rfl
  | serviceUpdate segment => exact withId fun asked => withBody fun spec => rfl
  | task segment => exact withId fun id => rfl
  | nodeUpdate segment => exact withId fun id => withBody fun spec => rfl
  | container segment => exact withId fun asked => rfl
  | service segment =>
    refine withId fun asked => ?_
    split <;> exact rfl
  | node segment =>
    refine withId fun id => ?_
    split <;> exact rfl

theorem ofRequest (request : Request) : (Meaning.ofRequest request).ForClients := by
  simp only [Meaning.ofRequest]
  split
  · exact response _
  · split
    · exact ofRoute _ _
    · exact response _

end Meaning.ForClients

/-! ## Responses -/

/-- A status that is seen is the status of a response. -/
theorem answered_of_status {outcome : Except Halt Response} {status : Nat}
    (seen : outcome.toOption.map Response.status = some status) :
    ∃ response, outcome = .ok response ∧ response.status = status := by
  cases outcome with
  | error halt => cases seen
  | ok response => exact ⟨response, rfl, Option.some.inj seen⟩

section Answered

open World (Intact)

variable {index : Fin n} {world after : World n} {response : Response}

/-- A client is answered with a status other than 200 only if nothing was carried out
or it failed. -/
theorem intact_answerMeaning {meaning : Meaning} (forClients : meaning.ForClients)
    (answered : (answerMeaning index meaning).run.run world = (.ok response, after))
    (status : response.status ≠ 200) : Intact index world after := by
  cases meaning with
  | response direct =>
    cases answered
    exact .refl world
  | version =>
    cases answered
    exact absurd rfl status
  | command command =>
    simp only [answerMeaning, respond, run_tryCatch, run_bind] at answered
    rcases run : (World.perform index command).run.run world with ⟨(error | _) | answer, next⟩
    · rw [run] at answered
      cases answered
      exact World.intact_perform_failed (not_callsBack forClients) run
    · rw [run] at answered
      cases answered
    · rw [run] at answered
      cases answered
      refine absurd ?_ status
      simp only [Response.ofAnswer]
      split <;> rfl
  | silent command =>
    simp only [answerMeaning, respond, run_tryCatch, run_bind] at answered
    rcases run : (World.perform index command).run.run world with ⟨(error | _) | answer, next⟩
    · rw [run] at answered
      cases answered
      exact World.intact_perform_failed (not_callsBack forClients) run
    · rw [run] at answered
      cases answered
    · rw [run] at answered
      cases answered
      exact absurd rfl status

theorem intact_answer {request : Request}
    (answered : (answer index request).run.run world = (.ok response, after))
    (status : response.status ≠ 200) : Intact index world after := by
  simp only [answer, run_bind] at answered
  split at answered
  next shown next run =>
    cases answered
    refine intact_answerMeaning (.ofRequest request) run fun ok => status ?_
    split
    · exact ok
    · exact ok
  next => cases answered

/-- A request to the endpoint for peers holds an operation, to be delivered in some
way. -/
def PeerEndpoint.Asks (request : Request) (operation : NodeOperation) (delivery : Delivery) : Prop :=
  NodeOperation.codec.ofBytes request.body = .ok operation ∧
    ∃ value, Percent.formValue? request.target.query deliveryName = some value ∧
      delivery = .ofQuery value

/-- A peer is answered with a status other than 200 only if its operation was not
carried out or failed. -/
theorem intact_peerAnswer {request : Request}
    (away : ∀ operation delivery, PeerEndpoint.Asks request operation delivery →
      ¬ world.CallsBack index (.handleOperation operation delivery))
    (answered : (PeerEndpoint.answer index request).run.run world = (.ok response, after))
    (status : response.status ≠ 200) : Intact index world after := by
  simp only [PeerEndpoint.answer, PeerEndpoint.answerWhile] at answered
  cases accepted : PeerEndpoint.accept request.method request.target
      (maxBody < request.body.size) with
  | error refusal =>
    rw [accepted] at answered
    cases answered
    exact .refl world
  | ok asked =>
  obtain ⟨_, _, ⟨value, queried, rfl⟩, _⟩ := PeerEndpoint.accept_eq_ok.mp accepted
  rw [accepted] at answered
  simp only [PeerEndpoint.answerBody, PeerEndpoint.applyBody, run_tryCatch, run_bind,
    World.run_found, reduceCtorEq, if_false] at answered
  rcases read : NodeOperation.codec.ofBytes request.body with fault | operation
  · rw [read] at answered
    cases answered
    exact .refl world
  · rw [read] at answered
    simp only [Except.mapError] at answered
    rcases run : (World.handle none index operation (.ofQuery value)).run.run world with
      ⟨(error | _) | nodes, next⟩
    · rw [run] at answered
      cases answered
      have apart := away operation _ ⟨read, value, queried, rfl⟩
      refine World.intact_handle_failed (fun passedOn => ?_) run
      rw [passedOn] at apart
      exact apart
    · rw [run] at answered
      cases answered
    · rw [run] at answered
      cases answered
      exact absurd rfl status

end Answered

end Http

/-! ## All failures -/

/-- **Failed requests change nothing.**  A request that fails leaves the member as it
was but for draws, and the open sockets as they were, and so does a request to one of
the HTTP endpoints that is answered with a status other than 200.  This is so in every
world, whatever becomes of what is sent to peers, unless an operation that the member
passes on comes back to it. -/
theorem failure_leaves_intact (world : World n) (index : Fin n) :
    (∀ command error, (world.step (World.perform index command)).1 = .error (.failed error) →
      ¬ world.CallsBack index command →
      World.Intact index world (world.step (World.perform index command)).2) ∧
    (∀ request response, (world.step (Http.answer index request)).1 = .ok response →
      response.status ≠ 200 →
      World.Intact index world (world.step (Http.answer index request)).2) ∧
    (∀ request response, (world.step (Http.PeerEndpoint.answer index request)).1 = .ok response →
      response.status ≠ 200 →
      (∀ operation delivery, Http.PeerEndpoint.Asks request operation delivery →
        ¬ world.CallsBack index (.handleOperation operation delivery)) →
      World.Intact index world (world.step (Http.PeerEndpoint.answer index request)).2) := by
  refine ⟨?_, ?_, ?_⟩
  · intro command error failed away
    exact .settle (World.intact_perform_failed away (Prod.ext failed rfl))
  · intro request response answered status
    exact .settle (Http.intact_answer (Prod.ext answered rfl) status)
  · intro request response answered status away
    exact .settle (Http.intact_peerAnswer away (Prod.ext answered rfl) status)

/-- A member fails to pass an operation on, and to remove its own node, and refuses an
operation without a body. -/
theorem failure_leaves_intact_deserted :
    (∃ error,
      (World.deserted.step (World.perform 0 (.handleOperation
        (.delete ((World.deserted.member 1).asNode "" default false)) .propagate))).1 =
        .error (.failed error) ∧
      World.Intact 0 World.deserted (World.deserted.step (World.perform 0 (.handleOperation
        (.delete ((World.deserted.member 1).asNode "" default false)) .propagate))).2) ∧
    (∃ response,
      (World.deserted.step (Http.answer 0 ⟨"DELETE", ⟨"/nodes/a", ""⟩, .empty⟩)).1 = .ok response ∧
      World.Intact 0 World.deserted
        (World.deserted.step (Http.answer 0 ⟨"DELETE", ⟨"/nodes/a", ""⟩, .empty⟩)).2) ∧
    (∃ response,
      (World.deserted.step (Http.PeerEndpoint.answer 0
        ⟨"POST", ⟨Address.updateNodesPath, "propagate=1"⟩, .empty⟩)).1 = .ok response ∧
      World.Intact 0 World.deserted (World.deserted.step (Http.PeerEndpoint.answer 0
        ⟨"POST", ⟨Address.updateNodesPath, "propagate=1"⟩, .empty⟩)).2) := by
  obtain ⟨requests, clients, peers⟩ := failure_leaves_intact World.deserted 0
  refine ⟨?_, ?_, ?_⟩
  · have failed : World.halt? (World.deserted.step (World.perform 0 (.handleOperation
        (.delete ((World.deserted.member 1).asNode "" default false)) .propagate))).1 =
          some (.failed (.peerUnreachable "127.0.0.1:32769")) := by decide +kernel
    have away : ¬ World.deserted.CallsBack 0 (.handleOperation
        (.delete ((World.deserted.member 1).asNode "" default false)) .propagate) := by
      unfold World.CallsBack World.comesBack
      decide +kernel
    have outcome := World.halt?_eq_some.mp failed
    exact ⟨_, outcome, requests _ _ outcome away⟩
  · have status : (World.deserted.step (Http.answer 0
        ⟨"DELETE", ⟨"/nodes/a", ""⟩, .empty⟩)).1.toOption.map Http.Response.status = some 500 := by
      decide +kernel
    obtain ⟨response, answered, failure⟩ := Http.answered_of_status status
    exact ⟨response, answered, clients _ response answered (by rw [failure]; decide)⟩
  · have status : (World.deserted.step (Http.PeerEndpoint.answer 0
        ⟨"POST", ⟨Address.updateNodesPath, "propagate=1"⟩, .empty⟩)).1.toOption.map
          Http.Response.status = some 500 := by
      decide +kernel
    obtain ⟨response, answered, failure⟩ := Http.answered_of_status status
    refine ⟨response, answered, peers _ response answered (by rw [failure]; decide) ?_⟩
    rintro operation delivery ⟨read, _⟩
    have unreadable : (NodeOperation.codec.ofBytes .empty).toOption = none := by decide +kernel
    rw [read] at unreadable
    cases unreadable

end SwarmManager
