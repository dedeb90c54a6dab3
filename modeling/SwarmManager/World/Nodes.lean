import SwarmManager.World.Fanout

/-!
# Changing nodes on every member

A change to a node is announced to all peers first and applied at the member
itself last.  If a peer fails, the member itself is as before.
-/

namespace SwarmManager.World

set_option autoImplicit false

variable {n : Nat}

/-- Announce an operation to the peers of a member that waits for them, and apply
it there. -/
def spread (index : Fin n) (operation : NodeOperation) : Action n Unit := do
  let member ← look index
  announce (some index) operation member.nodeId member.nodes
  let _ ← receive index operation

/-- Give a node another spec on every member. -/
def updateNode (index : Fin n) (id : String) (spec : NodeSpec) : Action n Node := do
  let node ← found ((← look index).inspectNode id)
  let updated := node.withSpec spec (← act index Member.draw).instant
  spread index (.update updated)
  return updated

/-- Remove a node from every member. -/
def deleteNode (index : Fin n) (id : String) : Action n Unit := do
  let node ← found ((← look index).inspectNode id)
  spread index (.delete node)

end SwarmManager.World
