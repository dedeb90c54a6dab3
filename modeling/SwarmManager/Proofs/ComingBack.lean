import SwarmManager.World.Command
import SwarmManager.Proofs.Exchange
import SwarmManager.Proofs.Lifecycle

/-!
# Operations that come back

A member passes an operation on before it applies it, and if one of the addresses it
knows is its own under another identifier, it passes it on to itself.  It would then
apply the operation twice, and the first time before it is known whether all peers
take it.

Whether that happens is seen by letting the member serve nobody in the meantime:
passing the operation on stalls if it comes back (`comesBack`), and runs the same
otherwise (`alike_announce`).
-/

namespace SwarmManager.World

set_option autoImplicit false

variable {n : Nat} {index : Fin n}

/-- Whether a member that passes an operation on comes to itself in doing so.  A
member that serves nobody in the meantime stalls exactly then. -/
def comesBack (world : World n) (index : Fin n) (operation : NodeOperation) : Prop :=
  ((announce (some index) operation (world.member index).nodeId
    (world.member index).nodes).run.run world).1 = .error .stalled

/-- Whether a request has the member pass on an operation in a way that comes back. -/
def CallsBack (world : World n) (index : Fin n) : Command → Prop
  | .handleOperation operation .propagate => world.comesBack index operation
  | _ => False

/-! ## Running as if nobody waited -/

/-- Unless it stalls, the second of two actions runs as the first one. -/
def Alike {α : Type} (free waiting : Action n α) : Prop :=
  ∀ world, (waiting.run.run world).1 ≠ .error .stalled →
    free.run.run world = waiting.run.run world

namespace Alike

variable {α β : Type} {free waiting : Action n α}

theorem refl (action : Action n α) : Alike action action := fun _ _ => rfl

/-- Whatever stalls is like anything. -/
theorem stalled (action : Action n α) : Alike action (throw .stalled) :=
  fun _ calm => absurd rfl calm

theorem bind (alike : Alike free waiting) {later laterWaiting : α → Action n β}
    (andThen : ∀ value, Alike (later value) (laterWaiting value)) :
    Alike (free >>= later) (waiting >>= laterWaiting) := by
  intro world calm
  have first := alike world
  rw [run_bind] at calm ⊢
  rw [run_bind]
  rcases run : waiting.run.run world with ⟨halt | value, next⟩
  · rw [run] at first calm
    rw [first fun stalled => calm (by cases stalled; rfl)]
  · rw [run] at first calm
    rw [first (by simp)]
    exact andThen value next calm

/-- A handler may look at failures, but passes on that an action stalls. -/
theorem tryCatch (alike : Alike free waiting) {handler : Halt → Action n α}
    (passes : handler .stalled = throw .stalled) :
    Alike (tryCatch free handler) (tryCatch waiting handler) := by
  intro world calm
  have first := alike world
  rw [run_tryCatch] at calm ⊢
  rw [run_tryCatch]
  rcases run : waiting.run.run world with ⟨(error | _) | value, next⟩
  · rw [run] at first
    rw [first (by simp)]
  · rw [run] at calm
    dsimp only at calm
    rw [passes] at calm
    exact absurd rfl calm
  · rw [run] at first
    rw [first (by simp)]

end Alike

section Alone

variable {serve : Serve n} (peer : String) (delivery : Delivery) (operation : NodeOperation)

theorem alike_contact :
    Alike (contact none serve peer delivery operation)
      (contact (some index) serve peer delivery operation) := by
  refine .bind (.refl _) fun world => ?_
  cases world.network.reach peer with
  | none => exact .refl _
  | some target =>
    obtain ⟨owner, target⟩ := target
    cases owner with
    | outsider outsider => exact .refl _
    | member other =>
      simp only [reduceCtorEq, ↓reduceIte]
      cases Http.PeerEndpoint.accept "POST" (target.asking delivery) operation.isTooLong with
      | error response => exact .refl _
      | ok asked =>
        simp only []
        split
        · exact .stalled _
        · exact .refl _

theorem alike_exchange :
    Alike (exchange none serve peer delivery operation)
      (exchange (some index) serve peer delivery operation) := by
  refine .bind (.refl _) fun fate => ?_
  cases fate with
  | delivered => exact alike_contact peer delivery operation
  | requestLost => exact .refl _
  | replyLost =>
    exact .tryCatch (.bind (alike_contact peer delivery operation) fun _ => .refl _) rfl

/-- An announcement that does not come back runs as if nobody waited. -/
theorem alike_announce (selfId : Option String) (nodes : List Node) :
    Alike (announce none operation selfId nodes)
      (announce (some index) operation selfId nodes) := by
  induction nodes with
  | nil => exact .refl _
  | cons node rest ih =>
    simp only [announce]
    split
    · cases node.peerAddress? with
      | none => exact ih
      | some peer => exact .bind (alike_exchange peer .terminal operation) fun _ => ih
    · exact ih

end Alone

end SwarmManager.World
