import SwarmManager.Http.Message
import SwarmManager.Json.Size
import SwarmManager.Membership.Address
import SwarmManager.Membership.Operation
import SwarmManager.Text.Percent

/-!
# Requests of peers

A peer posts an operation to one path of a member.  How the operation is to be
delivered it adds to the query of the member's address, which may have pairs of its
own.  A member reads the delivery off the whole query, and refuses a request that
asks for two, or whose body is too long.
-/

namespace SwarmManager

set_option autoImplicit false

/-- Whether the text of an operation is longer than a body may be. -/
def NodeOperation.isTooLong (operation : NodeOperation) : Bool :=
  (codec.encode operation).exceeds Http.maxBody

/-- So it is if the name that it gives a node is longer by itself. -/
theorem NodeOperation.isTooLong_of_name {operation : NodeOperation}
    (long : Http.maxBody < operation.node.spec.name.length) : operation.isTooLong = true := by
  let node := operation.node
  have name : (Json.Value.ofText node.spec.name).render.length ≤
      (NodeSpec.codec.encode node.spec).render.length :=
    Json.Value.length_render_member (List.mem_cons_self : ("Name", _) ∈ _)
  have spec : (NodeSpec.codec.encode node.spec).render.length ≤
      (Node.codec.encode node).render.length :=
    Json.Value.length_render_member (List.mem_cons_of_mem _ List.mem_cons_self : ("Spec", _) ∈ _)
  have whole : (Node.codec.encode node).render.length ≤ (codec.encode operation).render.length :=
    Json.Value.length_render_member (List.mem_cons_of_mem _ List.mem_cons_self : ("Node", _) ∈ _)
  refine Json.Value.exceeds_iff.mpr ?_
  calc Http.maxBody < node.spec.name.length := long
    _ ≤ (Json.Value.ofText node.spec.name).render.length := Json.Value.length_render_text _
    _ ≤ (codec.encode operation).render.length := Nat.le_trans name (Nat.le_trans spec whole)
    _ ≤ (codec.encode operation).text.utf8ByteSize := Json.length_le_utf8ByteSize_ofList _

namespace Http

/-- The name under which a query says how an operation is to be delivered. -/
def deliveryName : String := "propagate"

/-- A target with a delivery added to its query. -/
def Target.asking (target : Target) (delivery : Delivery) : Target :=
  let pair := deliveryName ++ "=" ++ delivery.queryValue
  { target with query := if target.query.isEmpty then pair else target.query ++ "&" ++ pair }

/-- Whether operations are taken at a target, to whose query a delivery is added: its
path is the one they are posted to, and its own query names no delivery. -/
def Target.takesOperations (target : Target) : Bool :=
  target.path == Address.updateNodesPath &&
    Percent.formValue? target.query deliveryName == some none

/-- How the operation in the body of a request is to be delivered, unless the request
is refused before its body is read. -/
def PeerEndpoint.accept (method : String) (target : Target) (isTooLong : Bool) :
    Except Response Delivery :=
  if target.path ≠ Address.updateNodesPath then .error (.bare 404)
  else if method ≠ "POST" then .error (.bare 405)
  else
    match Percent.formValue? target.query deliveryName with
    | none => .error .refusal
    | some value => if isTooLong then .error .tooLong else .ok (Delivery.ofQuery value)

/-! ## What is accepted -/

/-- The pairs of a target that a delivery was added to are its own and the one that names
the delivery. -/
theorem Target.formPairs_asking (target : Target) (delivery : Delivery) :
    Percent.formPairs (target.asking delivery).query =
      Percent.formPairs target.query ++ [(deliveryName, delivery.queryValue)] := by
  have pair : Percent.formPairs (deliveryName ++ "=" ++ delivery.queryValue) =
      [(deliveryName, delivery.queryValue)] := by
    cases delivery <;> decide +kernel
  simp only [asking]
  split
  next empty => rw [pair, String.isEmpty_iff.mp empty]; rfl
  next => rw [Percent.formPairs_join, pair]

/-- The delivery that was added is read, unless the target has another of its own. -/
theorem Target.formValue?_asking (target : Target) (delivery : Delivery) :
    Percent.formValue? (target.asking delivery).query deliveryName =
      if Percent.formValue? target.query deliveryName = some none then
        some (some delivery.queryValue)
      else none := by
  have named : ((Percent.formPairs (target.asking delivery).query).filter fun pair =>
      pair.1 == deliveryName) =
        ((Percent.formPairs target.query).filter fun pair => pair.1 == deliveryName) ++
          [(deliveryName, delivery.queryValue)] := by
    rw [formPairs_asking, List.filter_append]
    exact congrArg _ (List.filter_cons_of_pos (beq_self_eq_true deliveryName))
  rw [Percent.formValue?, named]
  by_cases unnamed : Percent.formValue? target.query deliveryName = some none
  · rw [if_pos unnamed, Percent.formValue?_eq_some_none.mp unnamed]
    rfl
  · obtain ⟨own, others, pairs⟩ :=
      List.exists_cons_of_ne_nil (mt Percent.formValue?_eq_some_none.mpr unnamed)
    rw [if_neg unnamed, pairs]
    cases others <;> rfl

namespace PeerEndpoint

variable {target : Target} {delivery asked : Delivery} {isTooLong : Bool} {response : Response}

/-- A request is accepted if it is a post to the path for operations, its query names one
delivery at most, and its body is short enough. -/
theorem accept_eq_ok {method : String} :
    accept method target isTooLong = .ok asked ↔
      target.path = Address.updateNodesPath ∧ method = "POST" ∧
        (∃ value, Percent.formValue? target.query deliveryName = some value ∧
          asked = .ofQuery value) ∧ isTooLong = false := by
  simp only [accept]
  by_cases right : target.path = Address.updateNodesPath
  · by_cases posted : method = "POST"
    · cases Percent.formValue? target.query deliveryName <;> cases isTooLong <;>
        simp [right, posted, eq_comm]
    · simp [right, posted]
  · simp [right]

/-- A request that asks for a delivery is accepted if operations are taken at its target
and its body is short enough, and then that delivery is read off it. -/
theorem accept_asking_eq_ok :
    accept "POST" (target.asking delivery) isTooLong = .ok asked ↔
      target.takesOperations = true ∧ isTooLong = false ∧ asked = delivery := by
  have path : (target.asking delivery).path = target.path := rfl
  simp only [accept_eq_ok, path, Target.formValue?_asking, Target.takesOperations,
    Bool.and_eq_true, beq_iff_eq]
  by_cases unnamed : Percent.formValue? target.query deliveryName = some none
  · simp [unnamed, Delivery.ofQuery_queryValue, and_comm]
  · simp [unnamed]

/-- A request is not refused but with a status that says so. -/
theorem status_ne_of_accept {method : String}
    (refused : accept method target isTooLong = .error response) : response.status ≠ 200 := by
  simp only [accept] at refused
  repeat' split at refused
  all_goals
    cases refused
    try decide

/-- A body that is too long is refused for that. -/
theorem accept_tooLong (takes : target.takesOperations = true) :
    accept "POST" (target.asking delivery) true = .error .tooLong := by
  have path : (target.asking delivery).path = target.path := rfl
  obtain ⟨right, unnamed⟩ : target.path = Address.updateNodesPath ∧
      Percent.formValue? target.query deliveryName = some none := by
    simpa only [Target.takesOperations, Bool.and_eq_true, beq_iff_eq] using takes
  simp only [accept, path, Target.formValue?_asking, right, unnamed, ne_eq, not_true_eq_false,
    if_false, if_true]

end PeerEndpoint

end Http

end SwarmManager
