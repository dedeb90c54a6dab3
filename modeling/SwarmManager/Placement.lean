import SwarmManager.Instance.Basic
import SwarmManager.Node.Basic
import SwarmManager.Task.Basic

/-!
# Placement

Tasks are placed on nodes in turn.  The turn is a cursor that all services of a
member share; it is reduced to the nodes there are before it is used, so it
outlives the removal of nodes.

`RoundRobin.next?` is one turn, and `placeTasks` places the tasks of a service,
each with a fresh instance.  Placing fails only if there is no node to place a
task on, and then nothing has been placed.
-/

namespace SwarmManager

set_option autoImplicit false

/-- Whose turn it is. -/
structure RoundRobin where
  cursor : Nat
  deriving DecidableEq

namespace RoundRobin

/-- The cursor of a member that has placed nothing. -/
def start : RoundRobin := ⟨0⟩

/-- The node whose turn it is, and the cursor after it. -/
def next? {α : Type} (turn : RoundRobin) (nodes : List α) : Option (α × RoundRobin) :=
  let position := turn.cursor % nodes.length
  match nodes[position]? with
  | some node => some (node, ⟨(position + 1) % nodes.length⟩)
  | none => none

/-- There is no turn exactly if there are no nodes. -/
theorem next?_eq_none {α : Type} {turn : RoundRobin} {nodes : List α} :
    turn.next? nodes = none ↔ nodes = [] := by
  constructor
  · intro noTurn
    rcases nodes with _ | ⟨first, others⟩
    · rfl
    · have inside : turn.cursor % (first :: others).length < (first :: others).length :=
        Nat.mod_lt _ (by simp)
      simp only [next?, List.getElem?_eq_getElem inside] at noTurn
      exact absurd noTurn (by simp)
  · rintro rfl
    simp [next?]

end RoundRobin

/-- A task and the instance behind it. -/
structure Placed where
  task : Task
  process : ProcessInstance
  deriving DecidableEq

/-- The name of the instance of a service's task with an index, with the suffix of
the occasion. -/
def instanceName (service : Service) (index : Nat) (suffix : String) : String :=
  service.spec.name ++ "-" ++ Decimal.text index ++ suffix

/-- Place one task of a service on a node. -/
def placeOn (service : Service) (suffix : String) (index : Nat) (node : Node) (supply : Supply) :
    Placed × Supply :=
  let process := ProcessInstance.forService supply.next service (instanceName service index suffix)
  let afterProcess := supply.advance
  let task := Task.schedule afterProcess.next service index node.id process.id
  (⟨task, process⟩, afterProcess.advance)

/-- Place `count` tasks of a service from an index on; none if there is no node
for one.  The tasks are listed in front of those that follow them. -/
def placeFrom (nodes : List Node) (service : Service) (suffix : String) :
    (count index : Nat) → RoundRobin → Supply → Option (List Placed × RoundRobin × Supply)
  | 0, _, turn, supply => some ([], turn, supply)
  | count + 1, index, turn, supply =>
      match turn.next? nodes with
      | none => none
      | some (node, turn) =>
          let (placed, supply) := placeOn service suffix index node supply
          match placeFrom nodes service suffix count (index + 1) turn supply with
          | none => none
          | some (later, turn, supply) => some (placed :: later, turn, supply)

/-- Place as many tasks as the service wants. -/
def placeTasks (nodes : List Node) (service : Service) (suffix : String) (turn : RoundRobin)
    (supply : Supply) : Except Error (List Placed × RoundRobin × Supply) :=
  match service.spec.desiredTasks nodes.length with
  | .error objection => .error objection
  | .ok count =>
      match placeFrom nodes service suffix count 0 turn supply with
      | none => .error .noNodes
      | some result => .ok result

end SwarmManager
