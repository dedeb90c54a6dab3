import SwarmManager.Proofs.OneHop
import SwarmManager.Proofs.Replication

/-!
# Requests about membership keep the registry replicated

A member may join through a current member while it is outside any swarm, a current
member may update and delete nodes, and a member that is not current any more may leave
(`Event.Permitted`).  None of these requests fails because of a peer, unless what it sends
is too long for peers to take (`RefusedForLength`), and each leaves the registry
replicated, with the entries that were there before but for what users edit
(`Event.maintained`).
-/

namespace SwarmManager

set_option autoImplicit false

variable {n : Nat}

/-- Whether an action did not come to its end because of a peer: it is out of reach, it
refuses, it answers with no registry, or it never answers. -/
def Halt.isOfPeer : Halt → Bool
  | .stalled | .failed (.peerUnreachable _) | .failed (.unexpectedPeerResponse _ _)
  | .failed (.json _) => true
  | .failed _ => false

/-- The entry that a member has of itself. -/
def Member.ownNode? (member : Member) : Option Node :=
  member.nodes.find? fun node => member.nodeId == some node.id

/-- A member that enters finds the entry it enters with. -/
theorem Member.ownNode?_entered {member : Member} {endpoint : Endpoint} {nodes : List Node}
    {node : Node} (fresh : ∀ other ∈ nodes, other.id ≠ node.id) :
    (member.entered endpoint node.id (nodes ++ [node])).ownNode? = some node := by
  refine List.find?_eq_some_iff_append.mpr ⟨?_, nodes, [], rfl, fun other listed => ?_⟩
  · exact beq_self_eq_true (some node.id)
  · have different : some node.id ≠ some other.id := fun same =>
      fresh other listed (Option.some.inj same).symm
    exact congrArg not (beq_eq_false_iff_ne.mpr different)

namespace World

/-- An action did not come to its end because a peer refused what it was sent for its
length, and changed no registry. -/
structure RefusedForLength (sent? : Option NodeOperation) (halt : Halt) (before after : World n) :
    Prop where
  tooLong : ∃ operation ∈ sent?, operation.isTooLong = true
  halt_eq : ∃ peer, halt = .failed (.unexpectedPeerResponse peer 413)
  nodes_eq : ∀ index, (after.member index).nodes = (before.member index).nodes

/-- An action that sent an operation did not fail because of a peer, unless it was refused
for its length, and left the registry replicated, with entries of the members there were
before, or others that are expected. -/
structure Maintained {α : Type} (order : List (Fin n)) (entry : Fin n → Node)
    (sent? : Option NodeOperation) (expected : Fin n → Node → Prop) (before : World n)
    (outcome : Except Halt α) (after : World n) : Prop where
  faults : ∀ halt, outcome = .error halt → halt.isOfPeer = true →
    RefusedForLength sent? halt before after
  replicated : ∃ order' entry', after.Replicated order' entry' ∧ ∀ index ∈ order',
    (index ∈ order ∧ (entry' index).SameMember (entry index)) ∨ expected index (entry' index)

variable {world : World n} {order : List (Fin n)} {entry : Fin n → Node} {index : Fin n}

/-- A request that is refused for another reason than peers changes nothing. -/
theorem Replicated.refused {α : Type} (replicated : world.Replicated order entry) {error : Error}
    (own : (Halt.failed error).isOfPeer = false) (sent? : Option NodeOperation)
    (expected : Fin n → Node → Prop) (before : World n) :
    Maintained order entry sent? expected before (.error (.failed error) : Except Halt α)
      world := by
  refine ⟨?_, order, entry, replicated, fun _ among => .inl ⟨among, .refl _⟩⟩
  rintro _ ⟨⟩ ofPeer
  rw [own] at ofPeer
  cases ofPeer

/-- A request whose operation a peer refuses for its length changes no registry. -/
theorem Replicated.refusedForLength {α : Type} {after : World n}
    (replicated : after.Replicated order entry) {sent? : Option NodeOperation}
    {operation : NodeOperation} (sent : sent? = some operation)
    (long : operation.isTooLong = true) (peer : String) (expected : Fin n → Node → Prop)
    (before : World n)
    (drew : ∀ index, ∃ count, after.member index = (before.member index).drew count) :
    Maintained order entry sent? expected before
      (.error (.failed (.unexpectedPeerResponse peer 413)) : Except Halt α) after := by
  refine ⟨?_, order, entry, replicated, fun _ among => .inl ⟨among, .refl _⟩⟩
  rintro _ ⟨⟩ -
  refine ⟨⟨operation, sent, long⟩, ⟨peer, rfl⟩, fun index => ?_⟩
  obtain ⟨count, same⟩ := drew index
  rw [same]
  rfl

/-- Either others take what is sent to them, or somebody is sent what is too long. -/
theorem takes_or_exists_tooLong (order : List (Fin n)) (index : Fin n)
    (operation : NodeOperation) :
    (∀ other ∈ order, other ≠ index → operation.isTooLong = false) ∨
      operation.isTooLong = true ∧ ∃ other ∈ order, other ≠ index := by
  cases long : operation.isTooLong with
  | false => exact .inl fun _ _ _ => rfl
  | true =>
    by_cases others : ∃ other ∈ order, other ≠ index
    · exact .inr ⟨rfl, others⟩
    · exact .inl fun other present different => absurd ⟨other, present, different⟩ others

/-- The identifiers that a current member finds a node by are those of current
members. -/
theorem Replicated.inspectNode (replicated : world.Replicated order entry) (inside : index ∈ order)
    (id : String) :
    (world.member index).inspectNode id = .error (.nodeNotFound id) ∨
      ∃ target ∈ order, (world.member index).inspectNode id = .ok (entry target) := by
  obtain ⟨swarm, _⟩ := (replicated.agreed.current_iff index).mpr inside
  obtain ⟨identity, swarm⟩ := Option.isSome_iff_exists.mp swarm
  have inSwarm : (world.member index).inspectSwarm = .ok identity := by
    rw [Member.inspectSwarm, swarm]
  simp only [Member.inspectNode, inSwarm, replicated.agreed.nodes_eq index inside]
  cases found : (order.map entry).find? fun node => node.id == id with
  | none => exact .inl rfl
  | some node =>
    obtain ⟨target, present, rfl⟩ := List.mem_map.mp (List.mem_of_find?_eq_some found)
    exact .inr ⟨target, present, rfl⟩

/-- Replacing an entry by one of the same member changes no member. -/
theorem sameMember_update {target : Fin n} {node : Node} (same : node.SameMember (entry target))
    (other : Fin n) : (Function.update entry target node other).SameMember (entry other) := by
  by_cases here : other = target
  · rw [here, Function.update_self]
    exact same
  · rw [Function.update_of_ne here]
    exact .refl _

/-- A current member that has a node of no other identifier replaced keeps the registry
replicated. -/
theorem Replicated.updated (replicated : world.Replicated order entry) {target : Fin n}
    (present : target ∈ order) {node : Node} (same : node.SameMember (entry target))
    {after : World n} (applied : Applied (.update node) order world after) :
    after.Replicated order (Function.update entry target node) := by
  have own : ∀ other ∈ order, (entry other).id = node.id ↔ other = target := by
    intro other among
    rw [same.id_eq]
    exact replicated.agreed.id_eq_iff replicated.tidy among present
  exact replicated.applied applied (replaceFirst_map replicated.agreed.nodup present own)
    replicated.agreed.nodup (fun _ among => among) fun other _ => sameMember_update same other

/-- Removing the node of a current member from all registries leaves the others
replicated. -/
theorem Replicated.removed (replicated : world.Replicated order entry) {target : Fin n}
    (present : target ∈ order) {after : World n}
    (applied : Applied (.delete (entry target)) order world after) :
    after.Replicated (order.filter fun other => other ≠ target) entry := by
  have own : ∀ other ∈ order, (entry other).id = (entry target).id ↔ other = target :=
    fun _ among => replicated.agreed.id_eq_iff replicated.tidy among present
  exact replicated.applied applied
    (eraseP_map (replicated.agreed.nodup_ids replicated.tidy) own)
    (replicated.agreed.nodup.filter _) (fun _ among => List.mem_of_mem_filter among)
    fun _ _ => .refl _

/-- What a current member updates is sent to all others, who take it or refuse it for its
length. -/
theorem Replicated.updateNode (replicated : world.Replicated order entry) (inside : index ∈ order)
    (id : String) (spec : NodeSpec) (expected : Fin n → Node → Prop) :
    Maintained order entry ((Command.updateNode id spec).announced? (world.member index)) expected
      world ((updateNode index id spec).run.run world).1
      ((updateNode index id spec).run.run world).2 := by
  rw [run_updateNode]
  rcases replicated.inspectNode inside id with unknown | ⟨target, present, found⟩
  · rw [unknown]
    exact replicated.refused rfl _ expected world
  · have drew := replicated.drew index 1
    obtain ⟨node, revised⟩ : ∃ node,
      (entry target).withSpec spec (world.member index).supply.next.instant = node := ⟨_, rfl⟩
    have same : node.SameMember (entry target) := revised ▸ .withSpec _ _ _
    have sent : (Command.updateNode id spec).announced? (world.member index) =
        some (.update node) := by
      rw [Command.announced?, found, ← revised]
      rfl
    simp only [found, revised]
    rcases takes_or_exists_tooLong order index (.update node) with
      short | ⟨long, other, among, apart⟩
    · obtain ⟨after, spreads, applied⟩ := run_spread_agreed drew.agreed drew.tidy drew.listening
        inside short
      simp only [spreads]
      refine ⟨?_, order, _, drew.updated present same applied,
        fun other among => .inl ⟨among, sameMember_update same other⟩⟩
      rintro _ ⟨⟩
    · obtain ⟨peer, spreads⟩ := run_spread_tooLong drew.agreed drew.tidy drew.listening inside
        among apart long
      simp only [spreads]
      exact drew.advanced.refusedForLength sent long peer expected world
        (member_setMember_drew world index 1)

theorem Replicated.deleteNode (replicated : world.Replicated order entry) (inside : index ∈ order)
    (id : String) (expected : Fin n → Node → Prop) :
    Maintained order entry ((Command.deleteNode id).announced? (world.member index)) expected
      world ((deleteNode index id).run.run world).1 ((deleteNode index id).run.run world).2 := by
  rw [run_deleteNode]
  rcases replicated.inspectNode inside id with unknown | ⟨target, present, found⟩
  · rw [unknown]
    exact replicated.refused rfl _ expected world
  · have sent : (Command.deleteNode id).announced? (world.member index) =
        some (.delete (entry target)) := by
      rw [Command.announced?, found]
      rfl
    rw [found]
    rcases takes_or_exists_tooLong order index (.delete (entry target)) with
      short | ⟨long, other, among, apart⟩
    · obtain ⟨after, spreads, applied⟩ := run_spread_agreed replicated.agreed replicated.tidy
        replicated.listening inside short
      simp only [spreads]
      refine ⟨?_, _, entry, replicated.removed present applied,
        fun other among => .inl ⟨List.mem_of_mem_filter among, .refl _⟩⟩
      rintro _ ⟨⟩
    · obtain ⟨peer, spreads⟩ := run_spread_tooLong replicated.agreed replicated.tidy
        replicated.listening inside among apart long
      simp only [spreads]
      exact replicated.advanced.refusedForLength sent long peer expected world
        fun _ => ⟨0, rfl⟩

theorem Replicated.leaveCluster (replicated : world.Replicated order entry)
    (outside : index ∉ order) (sent? : Option NodeOperation) (expected : Fin n → Node → Prop) :
    Maintained order entry sent? expected world ((leaveCluster index).run.run world).1
      ((leaveCluster index).run.run world).2 := by
  rw [run_leaveCluster]
  split
  · exact ⟨nofun, order, entry, replicated.left outside, fun _ among => .inl ⟨among, .refl _⟩⟩
  · exact replicated.refused rfl sent? expected world

/-! ## Entering -/

/-- A current member finds the entry that all list of it. -/
theorem Agreed.ownNode?_eq (agreed : world.Agreed order entry) (tidy : world.Tidy)
    (inside : index ∈ order) : (world.member index).ownNode? = some (entry index) := by
  have isOwn : (fun other => some (entry index).id == some (entry other).id) index = true :=
    beq_self_eq_true (some (entry index).id)
  rw [Member.ownNode?, agreed.nodes_eq index inside, agreed.nodeId_eq index inside, List.find?_map]
  cases found :
      order.find? ((fun node : Node => some (entry index).id == some node.id) ∘ entry) with
  | none => exact absurd isOwn (List.find?_eq_none.mp found index inside)
  | some other =>
    have same := List.find?_some found
    simp only [Function.comp, beq_iff_eq, Option.some.injEq] at same
    rw [agreed.index_eq tidy inside (List.mem_of_find?_eq_some found) same]
    rfl

/-- An entry that a request to a member gave it: the identifier is the next that the
member draws. -/
structure NewEntry (world : World n) (index : Fin n) (isLeader : Bool) (other : Fin n)
    (node : Node) : Prop where
  index_eq : other = index
  id_eq : node.id = (world.member index).supply.next.id
  isLeader_eq : node.isLeader = isLeader

/-- A member that enters with an entry that all current members added keeps the
registry replicated, if the address it advertises reaches it. -/
theorem Replicated.admitted {α : Type} (replicated : world.Replicated order entry)
    (outside : index ∉ order) {address advertise : String} {endpoint : Endpoint}
    {network : Network n} (listened : world.listen index address = .ok (endpoint, network))
    {isLeader : Bool} {node : Node}
    (shown : (world.member index).asNode advertise endpoint isLeader = node) {after : World n}
    (applied : Applied (.add node) order (world.listening index network) after)
    (earlier : Network n) {entered : World n} (sent? : Option NodeOperation) (result : α)
    (after_eq : { after.setMember index ((after.member index).entered endpoint node.id
      (order.map entry ++ [node])) with network := after.network.settle earlier } = entered)
    (advertised : ∀ own, (entered.member index).ownNode? = some own →
      entered.Advertises own index) :
    Maintained order entry sent? (world.NewEntry index isLeader) world
      (.ok result : Except Halt α) entered := by
  have drawn : node.id = (world.member index).supply.next.id := by
    rw [← shown]
    rfl
  have leads : node.isLeader = isLeader := by
    rw [← shown]
    rfl
  have fresh : ∀ other ∈ order.map entry, other.id ≠ node.id := by
    intro other listed same
    obtain ⟨target, present, rfl⟩ := List.mem_map.mp listed
    exact replicated.tidy.next_ne
      (replicated.tidy.used target _ (replicated.agreed.nodeId_eq target present))
      (drawn.symm.trans same.symm)
  have own : (entered.member index).ownNode? = some node := by
    rw [← after_eq, member_withNetwork, member_setMember_self]
    exact Member.ownNode?_entered fresh
  obtain ⟨there, listed, reaches⟩ := advertised node own
  subst after_eq
  refine ⟨nofun, _, _, replicated.entered outside listened drawn applied earlier listed reaches,
    fun other among => ?_⟩
  by_cases here : other = index
  · rw [here, Function.update_self]
    exact .inr ⟨rfl, drawn, leads⟩
  · rw [Function.update_of_ne here]
    exact .inl ⟨mem_of_mem_append among here, .refl _⟩

/-- The first swarm of all is founded by one member. -/
theorem Replicated.initCluster (replicated : world.Replicated [] entry)
    (empty : (world.member index).nodes = []) (address advertise : String)
    (advertised : ∀ own,
      ((world.step (initCluster index address advertise)).2.member index).ownNode? = some own →
      (world.step (initCluster index address advertise)).2.Advertises own index) :
    Maintained [] entry none (world.NewEntry index true) world
      (world.step (initCluster index address advertise)).1
      (world.step (initCluster index address advertise)).2 := by
  revert advertised
  simp only [step, run_initCluster]
  split
  · exact fun _ => (replicated.settle world.network).refused rfl _ _ world
  · split
    next error refused =>
      rw [Network.listen_eq_error refused]
      exact fun _ => (replicated.settle world.network).refused rfl _ _ world
    next endpoint network listened =>
      let node := (world.member index).asNode advertise endpoint true
      have shown : (world.member index).asNode advertise endpoint true = node := rfl
      refine replicated.admitted List.not_mem_nil listened shown (.none _) world.network none _ ?_
      have known : ((world.member index).drew 1).nodes = [] := empty
      rw [World.listening, member_setMember_self, known]
      rfl

/-- A member joins through a current member, which takes its entry or refuses it for its
length. -/
theorem Replicated.joinCluster (replicated : world.Replicated order entry) (outside : index ∉ order)
    {remotes : List String} {remote : String} (first : remotes.head? = some remote)
    {through : Fin n} (current : through ∈ order) (reached : world.Reaches remote through)
    (address advertise : String) {sent? : Option NodeOperation}
    (sends : ∀ endpoint network, world.listen index address = .ok (endpoint, network) →
      sent? = some (.add ((world.member index).asNode advertise endpoint false)))
    (advertised : ∀ own,
      ((world.step (joinCluster index remotes address advertise)).2.member index).ownNode? =
        some own →
      (world.step (joinCluster index remotes address advertise)).2.Advertises own index) :
    Maintained order entry sent? (world.NewEntry index false) world
      (world.step (joinCluster index remotes address advertise)).1
      (world.step (joinCluster index remotes address advertise)).2 := by
  obtain ⟨rest, rfl⟩ : ∃ rest, remotes = remote :: rest := List.head?_eq_some_iff.mp first
  revert advertised
  simp only [step, run_joinCluster]
  split
  · exact fun _ => (replicated.settle world.network).refused rfl _ _ world
  · cases listened : world.listen index address with
    | error error =>
      rw [Network.listen_eq_error listened]
      exact fun _ => (replicated.settle world.network).refused rfl _ _ world
    | ok opened =>
      obtain ⟨endpoint, network⟩ := opened
      -- The peer is asked by a member that listens already, but lists nobody yet.
      have started := replicated.startedListening listened
      have reaches : (world.listening index network).Reaches remote through := by
        obtain ⟨_, _, rfl⟩ := Network.listen_eq_ok listened
        exact reached.mono fun _ there => Network.reach_opened there endpoint _
      cases long : (NodeOperation.add
          ((world.member index).asNode advertise endpoint false)).isTooLong with
      | false =>
        obtain ⟨after, sent, applied⟩ := run_send_agreed started.agreed started.tidy
          started.listening outside current reaches long
        simp only [sent]
        exact replicated.admitted outside listened rfl applied world.network sent? _ rfl
      | true =>
        have refused : (send (some index) remote
            (.add ((world.member index).asNode advertise endpoint false)) .propagate).run.run
              (world.listening index network) = _ :=
          run_exchange_tooLong (started.tidy.delivering _) long reaches
        simp only [refused]
        intro _
        have stopped := (replicated.stoppedListening listened).advanced.settle world.network
        exact stopped.refusedForLength (sends endpoint network listened) long remote _ world
          (member_setMember_drew world index 1)

end World

end SwarmManager
