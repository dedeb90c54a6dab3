import SwarmManager.Proofs.Steps

/-!
# The history of a run

What a member holds may depend on what happened long ago: how often a service was
updated, and how many nodes there were when its tasks were placed.  The history of
a run lists each request with the world it met, and from it one reads off the number
of successful updates of a service (`World.updates`) and the number of nodes at the
last successful request that gave the service its spec (`World.nodesWhenSettled`).

Both are told request by request (`updates_append`, `nodesWhenSettled_append`).
-/

namespace SwarmManager

set_option autoImplicit false

variable {n : Nat}

/-- A request that gives no service a spec updates none. -/
theorem Command.revised?_eq_none {command : Command} {outcome : Except Halt Answer}
    (unsettled : command.settled? outcome = none) : command.revised? outcome = none := by
  cases command with
  | updateService asked spec =>
    rcases outcome with halt | answer
    · rfl
    · cases answer <;> first | rfl | exact unsettled
  | _ => rfl

/-- A request to a member, and the world it met. -/
structure Event (n : Nat) where
  world : World n
  index : Fin n
  command : Command

namespace Event

/-- How the request ended. -/
def outcome (event : Event n) : Except Halt Answer :=
  (event.world.step (World.perform event.index event.command)).1

/-- Whether the request, successfully, gave a service of a member its spec. -/
def settles (event : Event n) (index : Fin n) (serviceId : String) : Bool :=
  event.index == index &&
    (event.command.settled? event.outcome).any fun service => service.id == serviceId

/-- Whether the request, successfully, updated a service of a member. -/
def revises (event : Event n) (index : Fin n) (serviceId : String) : Bool :=
  event.index == index &&
    (event.command.revised? event.outcome).any fun service => service.id == serviceId

end Event

namespace World

variable (world : World n)

/-- The requests of a run, each with the world it met. -/
def history : World n → List (Fin n × Command) → List (Event n)
  | _, [] => []
  | world, request :: rest =>
      ⟨world, request.1, request.2⟩ ::
        history (world.step (perform request.1 request.2)).2 rest

/-- The number of successful updates of a service of a member. -/
def updates (requests : List (Fin n × Command)) (index : Fin n) (serviceId : String) : Nat :=
  (world.history requests).countP fun event => event.revises index serviceId

/-- The number of nodes that a member listed when it last gave a service its spec. -/
def nodesWhenSettled (requests : List (Fin n × Command)) (index : Fin n) (serviceId : String) :
    Option Nat :=
  ((world.history requests).filter fun event => event.settles index serviceId).getLast?.map
    fun event => (event.world.member index).nodes.length

theorem history_append (requests : List (Fin n × Command)) (request : Fin n × Command) :
    world.history (requests ++ [request]) =
      world.history requests ++ [⟨world.after requests, request.1, request.2⟩] := by
  induction requests generalizing world with
  | nil => rfl
  | cons first rest ih =>
      simp only [List.cons_append, history, ih]
      rfl

section Append

variable (requests : List (Fin n × Command)) (request : Fin n × Command) (index : Fin n)
  (serviceId : String)

/-- One more request is one more update if it is one. -/
theorem updates_append :
    world.updates (requests ++ [request]) index serviceId =
      world.updates requests index serviceId +
        if (Event.mk (world.after requests) request.1 request.2).revises index serviceId then 1
        else 0 := by
  rw [updates, history_append, List.countP_append, List.countP_singleton]
  rfl

/-- One more request is the last to give a service its spec if it does so. -/
theorem nodesWhenSettled_append :
    world.nodesWhenSettled (requests ++ [request]) index serviceId =
      if (Event.mk (world.after requests) request.1 request.2).settles index serviceId then
        some ((world.after requests).member index).nodes.length
      else world.nodesWhenSettled requests index serviceId := by
  rw [nodesWhenSettled, history_append, List.filter_append, List.filter_singleton,
    Bool.cond_eq_ite]
  split
  · rw [List.getLast?_concat]
    rfl
  · rw [List.append_nil]
    rfl

end Append

/-- There are no more updates than requests to the member. -/
theorem updates_le (requests : List (Fin n × Command)) (index : Fin n) (serviceId : String) :
    world.updates requests index serviceId ≤ requests.countP fun request => request.1 == index := by
  induction requests using List.reverseRecOn with
  | nil => exact Nat.le_refl 0
  | append_singleton requests request ih =>
      rw [updates_append, List.countP_append, List.countP_singleton]
      by_cases here : request.1 == index
      · rw [if_pos here]
        split <;> omega
      · have elsewhere : ¬ (Event.mk (world.after requests) request.1 request.2).revises index
            serviceId := by
          simp [Event.revises, here]
        rw [if_neg here, if_neg elsewhere]
        exact ih

end World

end SwarmManager
