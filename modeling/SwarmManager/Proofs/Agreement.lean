import SwarmManager.Proofs.Delivery
import SwarmManager.Proofs.Keyed
import SwarmManager.Proofs.Start
import SwarmManager.Proofs.Steps
import Mathlib.Logic.Function.Basic

/-!
# One registry

A member is current if it is in a swarm and lists itself.  The current members agree
(`Agreed`) if they can be put in an order such that all of them list exactly these
members, each with one entry, in this order.

An operation that every current member applies keeps them agreed (`Agreed.applied`),
and so does a member that enters with what the others list then (`Agreed.entered`).
The announcement of a current member comes to all others (`run_spread_agreed`), and a
request to join through a current member comes to all current members
(`run_send_agreed`).
-/

namespace SwarmManager

set_option autoImplicit false

variable {n : Nat}

/-! ## Operations on listed entries -/

section Entries

variable {order : List (Fin n)} {entry : Fin n → Node} {target : Fin n} {node : Node}

/-- Replacing an entry changes it at its place. -/
theorem replaceFirst_map (nodup : order.Nodup) (inside : target ∈ order)
    (own : ∀ index ∈ order, (entry index).id = node.id ↔ index = target) :
    NodeOperation.replaceFirst node (order.map entry) =
      order.map (Function.update entry target node) := by
  induction order with
  | nil => exact absurd inside List.not_mem_nil
  | cons first rest ih =>
    obtain ⟨apart, restNodup⟩ := List.nodup_cons.mp nodup
    rw [List.map_cons, List.map_cons, NodeOperation.replaceFirst]
    by_cases here : first = target
    · have others : ∀ index ∈ rest, index ≠ target := by
        rintro index present rfl
        exact apart (here ▸ present)
      rw [if_pos ((own first List.mem_cons_self).mpr here), here, Function.update_self]
      refine congrArg (node :: ·) (List.map_congr_left fun index present => ?_)
      rw [Function.update_of_ne (others index present)]
    · have later : target ∈ rest := (List.mem_cons.mp inside).resolve_left (Ne.symm here)
      rw [if_neg fun same => here ((own first List.mem_cons_self).mp same),
        Function.update_of_ne here,
        ih restNodup later fun index present => own index (List.mem_cons_of_mem _ present)]

/-- Removing an entry leaves the others in their order. -/
theorem eraseP_map (nodup : (order.map fun index => (entry index).id).Nodup)
    (own : ∀ index ∈ order, (entry index).id = node.id ↔ index = target) :
    (order.map entry).eraseP (fun other => other.id == node.id) =
      (order.filter fun index => index ≠ target).map entry := by
  have keys : ((order.map entry).map Node.id).Nodup := by
    rw [List.map_map]
    exact nodup
  rw [eraseP_key keys node.id, List.filter_map]
  refine congrArg (List.map entry) (List.filter_congr fun index present => ?_)
  rw [Bool.eq_iff_iff]
  simpa using not_congr (own index present)

theorem mem_of_mem_append {index : Fin n} (present : index ∈ order ++ [target])
    (different : index ≠ target) : index ∈ order :=
  (List.mem_append.mp present).resolve_right fun last => different (List.mem_singleton.mp last)

/-- Adding an entry lists one more member. -/
theorem append_map (outside : target ∉ order) :
    order.map entry ++ [node] = (order ++ [target]).map (Function.update entry target node) := by
  rw [List.map_append, List.map_singleton, Function.update_self]
  refine congrArg (· ++ [node]) (List.map_congr_left fun index present => ?_)
  have different : index ≠ target := by
    rintro rfl
    exact outside present
  rw [Function.update_of_ne different]

end Entries

namespace World

/-! ## Agreement -/

/-- A member is current if it is in a swarm and lists itself. -/
def Current (world : World n) (index : Fin n) : Prop :=
  (world.member index).swarm.isSome ∧
    ∃ node ∈ (world.member index).nodes, (world.member index).nodeId = some node.id

instance (world : World n) (index : Fin n) : Decidable (world.Current index) :=
  inferInstanceAs (Decidable (_ ∧ _))

/-- The current members list each other in one order. -/
structure Agreed (world : World n) (order : List (Fin n)) (entry : Fin n → Node) : Prop where
  nodup : order.Nodup
  current_iff : ∀ index, world.Current index ↔ index ∈ order
  nodes_eq : ∀ index ∈ order, (world.member index).nodes = order.map entry
  nodeId_eq : ∀ index ∈ order, (world.member index).nodeId = some (entry index).id

/-- Everything is delivered, no two members draw the same, each has drawn its own
identifier, and each has its endpoint to itself. -/
structure Tidy (world : World n) : Prop where
  delivering : world.network.fates.AllDelivered
  apart : Supply.Apart fun index => (world.member index).supply
  used : ∀ index id, (world.member index).nodeId = some id → (world.member index).supply.Used id
  opened : ∀ index endpoint, (world.member index).listener = some endpoint →
    ⟨endpoint, .member index, true⟩ ∈ world.network.sockets
  owned : ∀ index endpoint, (world.member index).listener = some endpoint →
    ∀ socket ∈ world.network.sockets, socket.endpoint = endpoint → socket.owner = .member index

/-- The peer address of an entry reaches a member. -/
def Advertises (world : World n) (node : Node) (index : Fin n) : Prop :=
  ∃ address ∈ node.peerAddress?, world.Reaches address index

instance (world : World n) (node : Node) (index : Fin n) :
    Decidable (world.Advertises node index) :=
  inferInstanceAs (Decidable (∃ address ∈ node.peerAddress?, _))

/-- The peer addresses of the entries reach the members whose entries they are. -/
def Listening (world : World n) (order : List (Fin n)) (entry : Fin n → Node) : Prop :=
  ∀ index ∈ order, world.Advertises (entry index) index

namespace Tidy

variable {world : World n} {index other : Fin n} {id : String}

/-- Identifiers of members that have drawn them are not shared. -/
theorem index_eq (tidy : world.Tidy) (one : (world.member index).supply.Used id)
    (two : (world.member other).supply.Used id) : index = other := by
  obtain ⟨position, _, drawn⟩ := one
  obtain ⟨place, _, same⟩ := two
  exact (tidy.apart index other position place (drawn.trans same.symm)).1

/-- A member draws no identifier that any member has drawn. -/
theorem next_ne (tidy : world.Tidy) (used : (world.member other).supply.Used id) :
    (world.member index).supply.next.id ≠ id := by
  rintro rfl
  obtain ⟨position, before, same⟩ := used
  obtain ⟨rfl, rfl⟩ := tidy.apart other index position _ same
  exact Nat.lt_irrefl _ before

end Tidy

namespace Agreed

variable {world after : World n} {order : List (Fin n)} {entry : Fin n → Node}
  {operation : NodeOperation}

/-- Entries of different members have different identifiers. -/
theorem index_eq (agreed : world.Agreed order entry) (tidy : world.Tidy) {index other : Fin n}
    (inside : index ∈ order) (present : other ∈ order)
    (same : (entry index).id = (entry other).id) : index = other := by
  refine tidy.index_eq (tidy.used index _ (agreed.nodeId_eq index inside)) ?_
  rw [same]
  exact tidy.used other _ (agreed.nodeId_eq other present)

theorem id_eq_iff (agreed : world.Agreed order entry) (tidy : world.Tidy) {index other : Fin n}
    (inside : index ∈ order) (present : other ∈ order) :
    (entry index).id = (entry other).id ↔ index = other := by
  constructor
  · exact agreed.index_eq tidy inside present
  · rintro rfl
    rfl

theorem nodup_ids (agreed : world.Agreed order entry) (tidy : world.Tidy) :
    (order.map fun index => (entry index).id).Nodup :=
  agreed.nodup.map_on fun _ inside _ present same => agreed.index_eq tidy inside present same

/-- Agreement is about what current members list. -/
theorem of_current (agreed : world.Agreed order entry)
    (current : ∀ index, after.Current index ↔ world.Current index)
    (nodes : ∀ index ∈ order, (after.member index).nodes = (world.member index).nodes)
    (nodeIds : ∀ index ∈ order, (after.member index).nodeId = (world.member index).nodeId) :
    after.Agreed order entry where
  nodup := agreed.nodup
  current_iff index := (current index).trans (agreed.current_iff index)
  nodes_eq index inside := (nodes index inside).trans (agreed.nodes_eq index inside)
  nodeId_eq index inside := (nodeIds index inside).trans (agreed.nodeId_eq index inside)

/-- An operation that all current members apply keeps them agreed, if it adds none and
changes no identifier. -/
theorem applied (agreed : world.Agreed order entry) (tidy : world.Tidy)
    (applied : Applied operation order world after) {order' : List (Fin n)} {entry' : Fin n → Node}
    (result : operation.apply (order.map entry) = order'.map entry') (nodup : order'.Nodup)
    (subset : ∀ index ∈ order', index ∈ order)
    (ids : ∀ index ∈ order, (entry' index).id = (entry index).id) : after.Agreed order' entry' := by
  have nodes : ∀ index ∈ order, (after.member index).nodes = order'.map entry' := by
    intro index inside
    rw [applied.applied index inside, ← result, agreed.nodes_eq index inside]
  have nodeId : ∀ index ∈ order, (after.member index).nodeId = some (entry' index).id := by
    intro index inside
    rw [applied.applied index inside, ids index inside]
    exact agreed.nodeId_eq index inside
  refine ⟨nodup, fun index => ⟨?_, ?_⟩, fun index inside => nodes index (subset index inside),
    fun index inside => nodeId index (subset index inside)⟩
  · rintro ⟨swarm, node, listed, own⟩
    by_cases inside : index ∈ order
    · rw [nodes index inside] at listed
      obtain ⟨other, present, rfl⟩ := List.mem_map.mp listed
      rw [nodeId index inside, ids index inside, ids other (subset other present)] at own
      rw [agreed.index_eq tidy inside (subset other present) (Option.some.inj own)]
      exact present
    · -- Who is not current was spared, and lists itself no more than before.
      rw [applied.spared index inside] at swarm listed own
      exact absurd ((agreed.current_iff index).mp ⟨swarm, node, listed, own⟩) inside
  · intro inside
    refine ⟨?_, entry' index, ?_, nodeId index (subset index inside)⟩
    · rw [applied.applied index (subset index inside)]
      exact ((agreed.current_iff index).mpr (subset index inside)).1
    · rw [nodes index (subset index inside)]
      exact List.mem_map_of_mem inside

/-- A member that enters with an entry of its own, which all current members added,
agrees with them. -/
theorem entered (agreed : world.Agreed order entry) {index : Fin n} (outside : index ∉ order)
    {node : Node} (applied : Applied (.add node) order world after) (endpoint : Endpoint) :
    (after.setMember index ((after.member index).entered endpoint node.id
      (order.map entry ++ [node]))).Agreed (order ++ [index])
        (Function.update entry index node) := by
  have apart : ∀ other ∈ order, other ≠ index := by
    rintro other inside rfl
    exact outside inside
  have nodes : ∀ other ∈ order, (after.member other).nodes = order.map entry ++ [node] := by
    intro other inside
    rw [applied.applied other inside, agreed.nodes_eq other inside]
    rfl
  have nodeId : ∀ other ∈ order, (after.member other).nodeId = some (entry other).id := by
    intro other inside
    rw [applied.applied other inside]
    exact agreed.nodeId_eq other inside
  rw [append_map outside] at nodes ⊢
  refine ⟨?_, ?_, ?_, ?_⟩
  · refine List.nodup_append.mpr ⟨agreed.nodup, List.nodup_singleton index, ?_⟩
    intro other inside another here
    rw [List.mem_singleton.mp here]
    exact apart other inside
  · intro other
    by_cases here : other = index
    · subst here
      refine iff_of_true ?_ (List.mem_append_right _ (List.mem_singleton_self _))
      rw [Current, member_setMember_self]
      refine ⟨rfl, node, ?_, rfl⟩
      rw [← append_map outside]
      exact List.mem_append_right _ (List.mem_singleton_self node)
    · rw [Current, member_setMember_of_ne _ here, List.mem_append, List.mem_singleton]
      by_cases inside : other ∈ order
      · refine iff_of_true ⟨?_, entry other, ?_, nodeId other inside⟩ (.inl inside)
        · rw [applied.applied other inside]
          exact ((agreed.current_iff other).mpr inside).1
        · rw [nodes other inside, ← append_map outside]
          exact List.mem_append_left _ (List.mem_map_of_mem inside)
      · rw [applied.spared other inside]
        refine (agreed.current_iff other).trans ⟨Or.inl, fun among => among.resolve_right here⟩
  · intro other inside
    by_cases here : other = index
    · rw [here, member_setMember_self]
      rfl
    · rw [member_setMember_of_ne _ here]
      exact nodes other (mem_of_mem_append inside here)
  · intro other inside
    by_cases here : other = index
    · rw [here, member_setMember_self, Function.update_self]
      rfl
    · rw [member_setMember_of_ne _ here, Function.update_of_ne here]
      exact nodeId other (mem_of_mem_append inside here)

end Agreed

/-! ## Sending among current members -/

section Sending

variable {world : World n} {order : List (Fin n)} {entry : Fin n → Node} {index : Fin n}

/-- What a current member announces, all others apply, and then it does so itself. -/
theorem run_announce_agreed (agreed : world.Agreed order entry) (tidy : world.Tidy)
    (listening : world.Listening order entry) (inside : index ∈ order) {waiting : Option (Fin n)}
    (free : ∀ other ∈ order, other ≠ index → waiting ≠ some other) {operation : NodeOperation}
    (short : ∀ other ∈ order, other ≠ index → operation.isTooLong = false) :
    ∃ next, (announce waiting operation (world.member index).nodeId
        (world.member index).nodes).run.run world = (.ok ⟨⟩, next) ∧
      (next.member index).nodes = order.map entry ∧
      Applied operation order world (next.setMember index
        { next.member index with nodes := operation.apply (next.member index).nodes }) := by
  have own : ∀ other ∈ order, some (entry index).id ≠ some (entry other).id ↔ other ≠ index := by
    intro other present
    rw [ne_eq, Option.some.injEq, agreed.id_eq_iff tidy inside present, ne_comm]
  have reached : ∀ other ∈ order, some (entry index).id ≠ some (entry other).id →
      waiting ≠ some other ∧ ∃ address, (entry other).peerAddress? = some address ∧
        world.Reaches address other := by
    intro other present different
    exact ⟨free other present ((own other present).mp different), listening other present⟩
  obtain ⟨next, announced, others⟩ := run_announce tidy.delivering agreed.nodup
    (fun other present different => short other present ((own other present).mp different)) reached
  have spared :
      index ∉ order.filter fun other => some (entry index).id ≠ some (entry other).id := by
    intro present
    simpa using (List.mem_filter.mp present).2
  refine ⟨next, ?_, ?_, ?_⟩
  · rw [agreed.nodeId_eq index inside, agreed.nodes_eq index inside]
    exact announced
  · rw [others.spared index spared]
    exact agreed.nodes_eq index inside
  · refine (others.append (.receive next operation index) ?_).congr fun other => ?_
    · intro other present here
      rw [List.mem_singleton.mp here] at present
      exact spared present
    · constructor
      · intro present
        rcases List.mem_append.mp present with among | here
        · exact List.mem_of_mem_filter among
        · rw [List.mem_singleton.mp here]
          exact inside
      · intro present
        by_cases here : other = index
        · exact List.mem_append_right _ (List.mem_singleton.mpr here)
        · refine List.mem_append_left _ (List.mem_filter.mpr ⟨present, ?_⟩)
          exact decide_eq_true ((own other present).mpr here)

/-- What a current member spreads, all current members apply, if it is short enough for
those that it is sent to. -/
theorem run_spread_agreed (agreed : world.Agreed order entry) (tidy : world.Tidy)
    (listening : world.Listening order entry) (inside : index ∈ order) {operation : NodeOperation}
    (short : ∀ other ∈ order, other ≠ index → operation.isTooLong = false) :
    ∃ after, (spread index operation).run.run world = (.ok ⟨⟩, after) ∧
      Applied operation order world after := by
  have free : ∀ other ∈ order, other ≠ index → some index ≠ some other := by
    rintro other _ different ⟨⟩
    exact different rfl
  obtain ⟨next, announced, _, applied⟩ :=
    run_announce_agreed agreed tidy listening inside free short
  refine ⟨_, ?_, applied⟩
  rw [run_spread, announced]

/-- What a current member spreads is refused if it is too long for others, and then nobody
applies it. -/
theorem run_spread_tooLong (agreed : world.Agreed order entry) (tidy : world.Tidy)
    (listening : world.Listening order entry) (inside : index ∈ order) {other : Fin n}
    (present : other ∈ order) (different : other ≠ index) {operation : NodeOperation}
    (long : operation.isTooLong = true) :
    ∃ peer, (spread index operation).run.run world =
      (.error (.failed (.unexpectedPeerResponse peer 413)),
        { world with network := world.network.advanceFate }) := by
  have apart : some (entry index).id ≠ some (entry other).id := by
    rw [ne_eq, Option.some.injEq, agreed.id_eq_iff tidy inside present]
    exact different.symm
  have announced : ∃ peer, (announce (some index) operation (some (entry index).id)
      (order.map entry)).run.run world = (.error (.failed (.unexpectedPeerResponse peer 413)),
        { world with network := world.network.advanceFate }) :=
    run_announce_tooLong long tidy.delivering listening ⟨other, present, apart⟩
  obtain ⟨peer, refused⟩ := announced
  refine ⟨peer, ?_⟩
  rw [run_spread, agreed.nodeId_eq index inside, agreed.nodes_eq index inside, refused]

/-- What a member that is not current sends to a current one to be passed on, all
current members apply. -/
theorem run_send_agreed (agreed : world.Agreed order entry) (tidy : world.Tidy)
    (listening : world.Listening order entry) (outside : index ∉ order) {peer : String}
    {through : Fin n} (current : through ∈ order) (reaches : world.Reaches peer through)
    {operation : NodeOperation} (short : operation.isTooLong = false) :
    ∃ after, (send (some index) peer operation .propagate).run.run world =
        (.ok (operation.apply (order.map entry)), after) ∧ Applied operation order world after := by
  have apart : ∀ other ∈ order, some index ≠ some other := by
    rintro other present ⟨⟩
    exact outside present
  -- The operation arrives when its own exchange has met its fate.
  let met : World n := { world with network := world.network.advanceFate }
  have agreedMet : met.Agreed order entry :=
    agreed.of_current (fun _ => Iff.rfl) (fun _ _ => rfl) fun _ _ => rfl
  have tidyMet : met.Tidy := { tidy with delivering := tidy.delivering }
  obtain ⟨next, announced, nodes, applied⟩ :=
    run_announce_agreed agreedMet tidyMet listening current
      (fun other present _ => apart other present) fun _ _ _ => short
  refine ⟨_, run_exchange (tidy.delivering _) short reaches (apart through current) ?_,
    applied.met⟩
  simp only [handle, ↓reduceIte, run_bind, run_look, run_receive]
  rw [announced]
  simp only [nodes]

end Sending

end World

end SwarmManager
