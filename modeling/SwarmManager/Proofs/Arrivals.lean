import SwarmManager.Proofs.OneHop
import SwarmManager.Proofs.Steps
import Mathlib.Data.List.Perm.Subperm

/-!
# The order in which operations arrive

Members may be sent the operations of two changes in different orders.  That is no matter as
long as the operations on each node arrive in one order (`SameOrder`): the entries of an
identifier depend on the operations on it only (`entriesOf_applyAll`), and a registry is told,
up to its order, by its entries of each identifier.

The order of a registry is told by when nodes are added, so it is the same if no two are.
Updating and deleting both put something in place of one entry (`alterFirst`), which is why
any two operations on different nodes commute unless both add.

The main statement is `operations_arrive_in_any_order`.
-/

namespace SwarmManager

set_option autoImplicit false

/-- Lists with the same items of each key, in the same order, are the same up to their order. -/
theorem perm_of_filter_key {α κ : Type} [DecidableEq α] [DecidableEq κ] {key : α → κ}
    {left right : List α}
    (same : ∀ wanted, (left.filter fun item => key item == wanted) =
      right.filter fun item => key item == wanted) : left.Perm right := by
  refine List.perm_iff_count.mpr fun item => ?_
  have counted : ∀ items : List α,
      (items.filter fun other => key other == key item).count item = items.count item :=
    fun items => List.count_filter (beq_self_eq_true (key item))
  rw [← counted left, same, counted]

/-- The entries of an identifier. -/
def entriesOf (id : String) (nodes : List Node) : List Node :=
  nodes.filter fun node => node.id == id

theorem entriesOf_cons (id : String) (node : Node) (rest : List Node) :
    entriesOf id (node :: rest) =
      if node.id = id then node :: entriesOf id rest else entriesOf id rest := by
  simp only [entriesOf, List.filter_cons, beq_iff_eq]

theorem entriesOf_append (id : String) (front back : List Node) :
    entriesOf id (front ++ back) = entriesOf id front ++ entriesOf id back :=
  List.filter_append ..

/-! ## Putting something in place of an entry -/

/-- The registry with some nodes in place of the first entry of an identifier. -/
def alterFirst (id : String) (placed : List Node) : List Node → List Node
  | [] => []
  | entry :: rest => if entry.id = id then placed ++ rest else entry :: alterFirst id placed rest

section AlterFirst

variable {id other : String} {placed : List Node}

/-- Entries of another identifier are passed over. -/
theorem alterFirst_append_of_ne {front : List Node} (apart : ∀ node ∈ front, node.id ≠ id)
    (back : List Node) :
    alterFirst id placed (front ++ back) = front ++ alterFirst id placed back := by
  induction front with
  | nil => rfl
  | cons node rest ih =>
    obtain ⟨here, later⟩ := List.forall_mem_cons.mp apart
    rw [List.cons_append, alterFirst, if_neg here, ih later, List.cons_append]

/-- What stands behind all entries of an identifier stays behind. -/
theorem alterFirst_concat {node : Node} (apart : node.id ≠ id) (nodes : List Node) :
    alterFirst id placed (nodes ++ [node]) = alterFirst id placed nodes ++ [node] := by
  induction nodes with
  | nil => exact if_neg apart
  | cons entry rest ih =>
    simp only [List.cons_append, alterFirst]
    split
    · rw [List.append_assoc]
    · rw [ih, List.cons_append]

/-- Entries of different identifiers may be altered in either order. -/
theorem alterFirst_comm (different : id ≠ other) {others : List Node}
    (own : ∀ node ∈ placed, node.id = id) (theirs : ∀ node ∈ others, node.id = other)
    (nodes : List Node) :
    alterFirst id placed (alterFirst other others nodes) =
      alterFirst other others (alterFirst id placed nodes) := by
  have ownApart : ∀ node ∈ placed, node.id ≠ other := fun node listed => own node listed ▸ different
  have theirsApart : ∀ node ∈ others, node.id ≠ id :=
    fun node listed => theirs node listed ▸ different.symm
  induction nodes with
  | nil => rfl
  | cons entry rest ih =>
    by_cases here : entry.id = id
    · have notThere : entry.id ≠ other := here ▸ different
      simp only [alterFirst, if_pos here, if_neg notThere, alterFirst_append_of_ne ownApart]
    · by_cases there : entry.id = other
      · simp only [alterFirst, if_neg here, if_pos there, alterFirst_append_of_ne theirsApart]
      · simp only [alterFirst, if_neg here, if_neg there, ih]

/-- What is altered is seen in the entries of the identifier. -/
theorem entriesOf_alterFirst_self (own : ∀ node ∈ placed, node.id = id) (nodes : List Node) :
    entriesOf id (alterFirst id placed nodes) = alterFirst id placed (entriesOf id nodes) := by
  induction nodes with
  | nil => rfl
  | cons entry rest ih =>
    by_cases here : entry.id = id
    · have kept : entriesOf id placed = placed :=
        List.filter_eq_self.mpr fun node listed => beq_iff_eq.mpr (own node listed)
      rw [alterFirst, if_pos here, entriesOf_append, kept, entriesOf_cons, if_pos here, alterFirst,
        if_pos here]
    · rw [alterFirst, if_neg here, entriesOf_cons, if_neg here, entriesOf_cons, if_neg here, ih]

/-- What is altered is not seen in the entries of other identifiers. -/
theorem entriesOf_alterFirst_of_ne (different : id ≠ other) (own : ∀ node ∈ placed, node.id = id)
    (nodes : List Node) : entriesOf other (alterFirst id placed nodes) = entriesOf other nodes := by
  induction nodes with
  | nil => rfl
  | cons entry rest ih =>
    by_cases here : entry.id = id
    · have none : entriesOf other placed = [] :=
        List.filter_eq_nil_iff.mpr fun node listed => by simpa [own node listed] using different
      rw [alterFirst, if_pos here, entriesOf_append, none, entriesOf_cons,
        if_neg (here ▸ different), List.nil_append]
    · rw [alterFirst, if_neg here, entriesOf_cons, entriesOf_cons, ih]

end AlterFirst

namespace NodeOperation

/-! ## One operation -/

/-- What an operation that does not add puts in place of the entry of its node. -/
def placed (operation : NodeOperation) : List Node :=
  match operation.kind with
  | .add | .update => [operation.node]
  | .delete => []

theorem id_of_mem_placed {operation : NodeOperation} :
    ∀ node ∈ operation.placed, node.id = operation.node.id := by
  obtain ⟨kind, node⟩ := operation
  cases kind <;> simp [placed]

theorem apply_add {operation : NodeOperation} (adds : operation.kind = .add) (nodes : List Node) :
    operation.apply nodes = nodes ++ [operation.node] := by
  rw [apply, adds]

/-- To update and to delete is to alter one entry. -/
theorem apply_eq_alterFirst {operation : NodeOperation} (alters : operation.kind ≠ .add)
    (nodes : List Node) :
    operation.apply nodes = alterFirst operation.node.id operation.placed nodes := by
  obtain ⟨kind, node⟩ := operation
  cases kind with
  | add => exact absurd rfl alters
  | update =>
    simp only [apply, placed]
    induction nodes with
    | nil => rfl
    | cons entry rest ih => simp only [replaceFirst, alterFirst, ih, List.singleton_append]
  | delete =>
    simp only [apply, placed]
    induction nodes with
    | nil => rfl
    | cons entry rest ih =>
      rw [alterFirst]
      split
      next here => exact List.eraseP_cons_of_pos (beq_iff_eq.mpr here)
      next apart => rw [List.eraseP_cons_of_neg (by simpa using apart), ih]

/-- Operations on different nodes commute, unless both add. -/
theorem apply_comm {one other : NodeOperation} (different : one.node.id ≠ other.node.id)
    (alters : one.kind ≠ .add ∨ other.kind ≠ .add) (nodes : List Node) :
    one.apply (other.apply nodes) = other.apply (one.apply nodes) := by
  by_cases oneAdds : one.kind = .add
  · have otherAlters := alters.resolve_left (not_not.mpr oneAdds)
    simp only [apply_add oneAdds, apply_eq_alterFirst otherAlters, alterFirst_concat different]
  · by_cases otherAdds : other.kind = .add
    · simp only [apply_add otherAdds, apply_eq_alterFirst oneAdds,
        alterFirst_concat different.symm]
    · simp only [apply_eq_alterFirst oneAdds, apply_eq_alterFirst otherAdds]
      exact alterFirst_comm different id_of_mem_placed id_of_mem_placed nodes

/-- An operation concerns the entries of its own identifier. -/
theorem entriesOf_apply (operation : NodeOperation) (id : String) (nodes : List Node) :
    entriesOf id (operation.apply nodes) =
      if operation.node.id = id then operation.apply (entriesOf id nodes)
      else entriesOf id nodes := by
  by_cases adds : operation.kind = .add
  · simp only [apply_add adds, entriesOf_append, entriesOf_cons]
    split
    · rfl
    · exact List.append_nil _
  · simp only [apply_eq_alterFirst adds]
    split
    next here => exact here ▸ entriesOf_alterFirst_self id_of_mem_placed nodes
    next different => exact entriesOf_alterFirst_of_ne different id_of_mem_placed nodes

/-! ## Several operations -/

/-- The registry after some operations, one after the other. -/
def applyAll (operations : List NodeOperation) (nodes : List Node) : List Node :=
  operations.foldl (fun nodes operation => operation.apply nodes) nodes

/-- The operations on the node of an identifier. -/
def about (id : String) (operations : List NodeOperation) : List NodeOperation :=
  operations.filter fun operation => operation.node.id == id

theorem about_cons (id : String) (operation : NodeOperation) (rest : List NodeOperation) :
    about id (operation :: rest) =
      if operation.node.id = id then operation :: about id rest else about id rest := by
  simp only [about, List.filter_cons, beq_iff_eq]

theorem about_append (id : String) (front back : List NodeOperation) :
    about id (front ++ back) = about id front ++ about id back :=
  List.filter_append ..

/-- Two lists of operations hold the same ones, those on each node in the same order. -/
def SameOrder (operations reordered : List NodeOperation) : Prop :=
  ∀ id, about id operations = about id reordered

/-- Such lists are reorderings of each other. -/
theorem SameOrder.perm {operations reordered : List NodeOperation}
    (same : SameOrder operations reordered) : operations.Perm reordered :=
  perm_of_filter_key same

/-- Only the identifiers of the operations need to be looked at. -/
theorem sameOrder_iff {operations reordered : List NodeOperation} :
    SameOrder operations reordered ↔ ∀ operation ∈ operations ++ reordered,
      about operation.node.id operations = about operation.node.id reordered := by
  constructor
  · exact fun same operation _ => same operation.node.id
  · intro same id
    by_cases known : ∃ operation ∈ operations ++ reordered, operation.node.id = id
    · obtain ⟨operation, listed, rfl⟩ := known
      exact same operation listed
    · have none : about id (operations ++ reordered) = [] :=
        List.filter_eq_nil_iff.mpr fun operation listed here =>
          known ⟨operation, listed, beq_iff_eq.mp here⟩
      rw [about_append, List.append_eq_nil_iff] at none
      exact none.1.trans none.2.symm

instance (operations reordered : List NodeOperation) : Decidable (SameOrder operations reordered) :=
  decidable_of_iff _ sameOrder_iff.symm

/-- The entries of an identifier depend on the operations on it only. -/
theorem entriesOf_applyAll (id : String) (operations : List NodeOperation) (nodes : List Node) :
    entriesOf id (applyAll operations nodes) =
      applyAll (about id operations) (entriesOf id nodes) := by
  induction operations generalizing nodes with
  | nil => rfl
  | cons operation rest ih =>
    refine (ih (operation.apply nodes)).trans ?_
    rw [entriesOf_apply, about_cons]
    split <;> rfl

/-- An operation that commutes with those before it may come first. -/
theorem applyAll_middle {operation : NodeOperation} {front : List NodeOperation}
    (commutes : ∀ earlier ∈ front, ∀ nodes,
      operation.apply (earlier.apply nodes) = earlier.apply (operation.apply nodes))
    (back : List NodeOperation) (nodes : List Node) :
    applyAll (front ++ operation :: back) nodes =
      applyAll (operation :: (front ++ back)) nodes := by
  induction front generalizing nodes with
  | nil => rfl
  | cons earlier rest ih =>
    obtain ⟨here, later⟩ := List.forall_mem_cons.mp commutes
    refine (ih later (earlier.apply nodes)).trans ?_
    simp only [applyAll, List.cons_append, List.foldl_cons, here]

/-- Operations of which at most one adds may come in any order that keeps the order of those
on each node. -/
theorem applyAll_eq_of_sameOrder {operations reordered : List NodeOperation}
    (same : SameOrder operations reordered)
    (commute : ∀ one ∈ operations, ∀ other ∈ operations, one.node.id ≠ other.node.id →
      one.kind ≠ .add ∨ other.kind ≠ .add)
    (nodes : List Node) : applyAll operations nodes = applyAll reordered nodes := by
  induction operations generalizing reordered nodes with
  | nil =>
    rw [← same.perm.nil_eq]
  | cons operation rest ih =>
    have first := (same operation.node.id).symm
    rw [about_cons, if_pos rfl] at first
    obtain ⟨front, back, rfl, apart, _, remaining⟩ := List.filter_eq_cons_iff.mp first
    -- What stands before the operation in the other order is on other nodes.
    have different : ∀ earlier ∈ front, operation.node.id ≠ earlier.node.id :=
      fun earlier listed equal => apart earlier listed (beq_iff_eq.mpr equal.symm)
    have known : ∀ earlier ∈ front, earlier ∈ operation :: rest := fun earlier listed =>
      same.perm.mem_iff.mpr (List.mem_append_left _ listed)
    have sameRest : SameOrder rest (front ++ back) := by
      intro id
      by_cases here : operation.node.id = id
      · subst here
        have none : about operation.node.id front = [] := List.filter_eq_nil_iff.mpr apart
        rw [about_append, none, List.nil_append]
        exact remaining.symm
      · have whole := same id
        rw [about_append, about_cons, about_cons, if_neg here, if_neg here, ← about_append] at whole
        exact whole
    rw [applyAll_middle fun earlier listed => apply_comm (different earlier listed)
      (commute _ List.mem_cons_self _ (known earlier listed) (different earlier listed))]
    exact ih sameRest (fun one inOne other inOther =>
      commute one (List.mem_cons_of_mem _ inOne) other (List.mem_cons_of_mem _ inOther)) _

/-- If at most one operation adds, of two operations on different nodes one does not. -/
theorem alters_of_countP_le {operations : List NodeOperation}
    (once : (operations.countP fun operation => operation.kind = .add) ≤ 1) :
    ∀ one ∈ operations, ∀ other ∈ operations, one.node.id ≠ other.node.id →
      one.kind ≠ .add ∨ other.kind ≠ .add := by
  intro one inOne other inOther different
  by_contra both
  obtain ⟨oneAdds, otherAdds⟩ := by simpa only [not_or, not_not] using both
  have adding : ∀ operation ∈ [one, other], operation.kind = .add := by simp [oneAdds, otherAdds]
  have apart : [one, other].Nodup := by
    simpa using fun same : one = other => different (congrArg (fun o => o.node.id) same)
  have within : [one, other].Subperm operations :=
    List.subperm_of_subset apart (by simp [inOne, inOther])
  have two : ([one, other].countP fun operation => operation.kind = .add) = 2 := by
    simp [oneAdds, otherAdds]
  have counted := within.countP_le fun operation => decide (operation.kind = .add)
  omega

end NodeOperation

namespace World

variable {n : Nat}

/-- The world after a member was delivered some operations, one after the other. -/
def afterDeliveries (world : World n) (index : Fin n) (operations : List NodeOperation) :
    World n :=
  world.after (operations.map fun operation => (index, .handleOperation operation .terminal))

/-- A member applies the operations that it is delivered. -/
theorem nodes_afterDeliveries (world : World n) (index : Fin n)
    (operations : List NodeOperation) :
    ((world.afterDeliveries index operations).member index).nodes =
      NodeOperation.applyAll operations (world.member index).nodes := by
  induction operations generalizing world with
  | nil => rfl
  | cons operation rest ih =>
    refine (ih _).trans (congrArg (NodeOperation.applyAll rest) ?_)
    rw [member_step, run_perform_terminal, applied, member_setMember_self]

end World

/-- **Operations on different nodes may arrive in any order.**  Whatever a registry lists, also
if it lists an identifier twice, operations that are applied to it in two orders, those on each
node in the same one, leave the same entries of each identifier, in the same order, and the same
registry up to its order.  If at most one of the operations adds a node, they leave the same
registry.  A member that is delivered operations applies them in this way. -/
theorem operations_arrive_in_any_order (nodes : List Node)
    (operations reordered : List NodeOperation)
    (same : NodeOperation.SameOrder operations reordered) :
    let left := NodeOperation.applyAll operations nodes
    let right := NodeOperation.applyAll reordered nodes
    left.Perm right ∧ (∀ id, entriesOf id left = entriesOf id right) ∧
      ((operations.countP fun operation => operation.kind = .add) ≤ 1 → left = right) ∧
      ∀ {n : Nat} (world : World n) (index : Fin n), (world.member index).nodes = nodes →
        ((world.afterDeliveries index operations).member index).nodes = left ∧
          ((world.afterDeliveries index reordered).member index).nodes = right := by
  intro left right
  have entries : ∀ id, entriesOf id left = entriesOf id right := fun id => by
    rw [NodeOperation.entriesOf_applyAll, NodeOperation.entriesOf_applyAll, same]
  refine ⟨perm_of_filter_key entries, entries, fun once => ?_, ?_⟩
  · exact NodeOperation.applyAll_eq_of_sameOrder same (NodeOperation.alters_of_countP_le once) nodes
  · rintro n world index rfl
    exact ⟨world.nodes_afterDeliveries index operations,
      world.nodes_afterDeliveries index reordered⟩

/-- A registry lists a node twice.  Of that node one entry is updated and removed, another node is
removed and a third added, in two orders. -/
theorem operations_arrive_in_any_order_listedTwice :
    let node (id : String) : Node := .manager ⟨id, .epoch, 0⟩ default "" "" false
    let nodes := [node "a", node "b", node "a"]
    let renamed := (node "a").withSpec { name := "renamed" } .epoch
    let operations : List NodeOperation :=
      [.update renamed, .add (node "c"), .delete (node "b"), .delete (node "a")]
    let reordered : List NodeOperation :=
      [.delete (node "b"), .update renamed, .delete (node "a"), .add (node "c")]
    let world := World.twoMembers.setMember 1 { World.twoMembers.member 1 with nodes := nodes }
    NodeOperation.SameOrder operations reordered ∧
      NodeOperation.applyAll operations nodes = [node "a", node "c"] ∧
      NodeOperation.applyAll reordered nodes = [node "a", node "c"] ∧
      ((world.afterDeliveries 1 reordered).member 1).nodes = [node "a", node "c"] := by
  intro node nodes renamed operations reordered world
  have same : NodeOperation.SameOrder operations reordered := by decide +kernel
  have once : (operations.countP fun operation => operation.kind = .add) ≤ 1 := by decide +kernel
  have left : NodeOperation.applyAll operations nodes = [node "a", node "c"] := by decide +kernel
  obtain ⟨_, _, equal, delivered⟩ := operations_arrive_in_any_order nodes operations reordered same
  have right := (equal once).symm.trans left
  have listed : (world.member 1).nodes = nodes := by rw [World.member_setMember_self]
  exact ⟨same, left, right, (delivered world 1 listed).2.trans right⟩

/-- Two nodes that are added stand in the order in which they were. -/
example :
    let one : NodeOperation := .add (.manager ⟨"a", .epoch, 0⟩ default "" "" false)
    let other : NodeOperation := .add (.manager ⟨"b", .epoch, 0⟩ default "" "" false)
    NodeOperation.SameOrder [one, other] [other, one] ∧
      NodeOperation.applyAll [one, other] [] ≠ NodeOperation.applyAll [other, one] [] := by
  decide +kernel

end SwarmManager
