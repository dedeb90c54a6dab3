import SwarmManager.Member.Services
import SwarmManager.World.Network

/-!
# Worlds of members

A world is a fixed number of members and the network between them.  What one
member does may change others, through the operations it sends them, so it is an
`Action` of the world.

An action fails with an error, or it stalls: a member that waits for its peers
answers nobody, and if one of those peers waits for it the request never ends.
Whatever was done before an action failed stays done.
-/

namespace SwarmManager

set_option autoImplicit false

/-- Members and the network between them. -/
structure World (n : Nat) where
  members : Vector Member n
  network : Network n

/-- Why an action does not come to its end. -/
inductive Halt where
  | failed (error : Error)
  /-- The request is never answered. -/
  | stalled
  deriving DecidableEq

namespace World

variable {n : Nat}

/-- Something that happens in a world. -/
abbrev Action (n : Nat) (α : Type) : Type := ExceptT Halt (StateM (World n)) α

/-- A member. -/
def member (world : World n) (index : Fin n) : Member := world.members[index]

/-- The world with another state of a member. -/
def setMember (world : World n) (index : Fin n) (member : Member) : World n :=
  { world with members := world.members.set index member }

theorem member_setMember (world : World n) (index probe : Fin n) (member : Member) :
    (world.setMember index member).member probe =
      if probe = index then member else world.member probe := by
  simp only [World.member, setMember, Fin.getElem_fin, Vector.getElem_set]
  by_cases same : index = probe
  · simp [same]
  · have apart : ¬ probe = index := fun reverse => same reverse.symm
    have apartValues : ¬ index.val = probe.val := fun values => same (Fin.ext values)
    simp [apart, apartValues]

/-- Fail with an error. -/
def fail {α : Type} (error : Error) : Action n α := throw (.failed error)

/-- The state of a member. -/
def look (index : Fin n) : Action n Member := do return (← get).member index

/-- Change a member. -/
def change (index : Fin n) (update : Member → Member) : Action n Unit :=
  modify fun world => world.setMember index (update (world.member index))

/-- What was found by looking at a member. -/
def found {α : Type} (result : Except Error α) : Action n α :=
  match result with
  | .ok value => return value
  | .error error => fail error

/-- Let a member do something by itself. -/
def act {α : Type} (index : Fin n) (action : Member.Action α) : Action n α := do
  let (result, after) := action.run.run ((← get).member index)
  change index fun _ => after
  found result

end World

end SwarmManager
