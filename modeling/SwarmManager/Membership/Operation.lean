import SwarmManager.Node.Codec

/-!
# Node operations

Members tell each other of changes to the node registry by operations: add a
node, replace the entry of a node, remove the entry of a node.  Adding appends;
the other two concern the first entry of the identifier and do nothing if there
is none.

An operation is delivered either to be passed on first (`propagate`) or to be
applied only (`terminal`).
-/

namespace SwarmManager

set_option autoImplicit false

open Json (Codec Layout Field)

/-- What an operation does with its node. -/
inductive NodeOpKind where
  | add
  | update
  | delete
  deriving DecidableEq

/-- A change to the node registry. -/
structure NodeOperation where
  kind : NodeOpKind
  node : Node
  deriving DecidableEq

namespace NodeOperation

/-- Append a node. -/
def add (node : Node) : NodeOperation := ⟨.add, node⟩

/-- Replace the entry of a node. -/
def update (node : Node) : NodeOperation := ⟨.update, node⟩

/-- Remove the entry of a node. -/
def delete (node : Node) : NodeOperation := ⟨.delete, node⟩

/-- Replace the first entry of the node's identifier. -/
def replaceFirst (node : Node) : List Node → List Node
  | [] => []
  | entry :: rest => if entry.id = node.id then node :: rest else entry :: replaceFirst node rest

/-- The registry after an operation. -/
def apply (operation : NodeOperation) (nodes : List Node) : List Node :=
  match operation.kind with
  | .add => nodes ++ [operation.node]
  | .update => replaceFirst operation.node nodes
  | .delete => nodes.eraseP fun entry => entry.id == operation.node.id

/-- Replacing keeps the identifiers and their order. -/
theorem map_id_replaceFirst (node : Node) (nodes : List Node) :
    (replaceFirst node nodes).map Node.id = nodes.map Node.id := by
  induction nodes with
  | nil => rfl
  | cons entry rest ih =>
      simp only [replaceFirst]
      split
      next same => simp [same]
      next => simp [ih]

end NodeOperation

namespace NodeOpKind

/-- The name of a kind. -/
def name : NodeOpKind → String
  | .add => "add"
  | .update => "update"
  | .delete => "delete"

/-- Kinds as their names. -/
def codec : Codec NodeOpKind := Codec.variants name [.add, .update, .delete]

end NodeOpKind

namespace NodeOperation

/-- Node operations. -/
def codec : Codec NodeOperation :=
  (Layout.field (.required "Op" NodeOpKind.codec) <| .field (.required "Node" Node.codec) <|
    .done).codec
    (fun (kind, node, ()) => ⟨kind, node⟩)
    (fun operation => (operation.kind, operation.node, ()))

end NodeOperation

/-- What the receiver of an operation does with it. -/
inductive Delivery where
  /-- Pass it on to every other member, then apply it. -/
  | propagate
  /-- Apply it. -/
  | terminal
  deriving DecidableEq

namespace Delivery

/-- The delivery that a query value asks for: only `0` is terminal. -/
def ofQuery (value : Option String) : Delivery :=
  if value = some "0" then .terminal else .propagate

/-- The query value of a delivery. -/
def queryValue : Delivery → String
  | .propagate => "1"
  | .terminal => "0"

theorem ofQuery_queryValue (delivery : Delivery) :
    ofQuery (some delivery.queryValue) = delivery := by
  cases delivery <;> rfl

end Delivery

end SwarmManager
