import SwarmManager.Proofs.Agreement
import SwarmManager.Proofs.Entries
import SwarmManager.Proofs.OneHop

/-!
# Repeating a change that stopped halfway

A change to a node is announced to one peer after the other, and if a call fails then some members
have it and others do not.  Who announces has not applied it, so what is asked of it again is
announced to the same peers.  An operation that is applied overrides an earlier one for the same
node (`Changes.overrides`), so a member is left the same whether or not it had taken part in
earlier attempts.

`Halfway` says what attempts that failed leave, however many there were; with one in which all calls
are answered (`AllAnswer`), everybody has the registry that one success alone would have left
(`repeating_repairs`).  They are answered if everything is delivered, to members that take
operations, and what is announced is short enough (`Halfway.allAnswer`).
-/

namespace SwarmManager

set_option autoImplicit false

variable {n : Nat}

/-! ## Changes of one node -/

/-- What a request to update or delete a node has a member announce, at whatever instant. -/
inductive Changes (member : Member) : Command → NodeOperation → Prop
  | update {id : String} {node : Node} (found : member.inspectNode id = .ok node) (spec : NodeSpec)
      (instant : Instant) :
      Changes member (.updateNode id spec) (.update (node.withSpec spec instant))
  | delete {id : String} {node : Node} (found : member.inspectNode id = .ok node) :
      Changes member (.deleteNode id) (.delete node)

/-- The node that a request is to update or delete. -/
def Command.changedNode? : Command → Option String
  | .updateNode id _ | .deleteNode id => some id
  | _ => none

/-- A node without the instant of its last update, if it is the one of an identifier. -/
def Node.undated (id : String) (node : Node) : Node :=
  if node.id = id then { node with updatedAt := .epoch } else node

namespace NodeOperation

variable {one other : Node} (same : one.id = other.id) (nodes : List Node)
include same

/-- Of two replacements of the same entry the later one stays. -/
theorem replaceFirst_replaceFirst :
    replaceFirst one (replaceFirst other nodes) = replaceFirst one nodes := by
  induction nodes with
  | nil => rfl
  | cons entry rest ih =>
    simp only [replaceFirst, same]
    split
    next here => simp only [replaceFirst, same, if_true]
    next here => simp only [replaceFirst, same, if_neg here, ih]

/-- Replacements that differ in their instant differ there in what they leave. -/
theorem map_undated_replaceFirst {id : String} (undated : one.undated id = other.undated id) :
    (replaceFirst one nodes).map (Node.undated id) =
      (replaceFirst other nodes).map (Node.undated id) := by
  induction nodes with
  | nil => rfl
  | cons entry rest ih =>
    simp only [replaceFirst, same]
    split
    next => rw [List.map_cons, List.map_cons, undated]
    next => rw [List.map_cons, List.map_cons, ih]

end NodeOperation

namespace Changes

variable {member : Member} {command : Command} {later earlier : NodeOperation} {nodes : List Node}

/-- What was applied before for the same node does not matter. -/
theorem overrides (last : Changes member command later) (first : Changes member command earlier)
    (nodup : (nodes.map Node.id).Nodup) :
    later.apply (earlier.apply nodes) = later.apply nodes := by
  cases last with
  | @update id node found spec instant =>
    cases first with
    | @update _ _ foundFirst _ before =>
      cases found.symm.trans foundFirst
      have same : (node.withSpec spec instant).id = (node.withSpec spec before).id := rfl
      exact NodeOperation.replaceFirst_replaceFirst same nodes
  | @delete id node found =>
    cases first with
    | delete foundFirst =>
      cases found.symm.trans foundFirst
      have gone : ∀ entry ∈ nodes.eraseP fun entry => entry.id == node.id,
          ¬ (entry.id == node.id) = true := by
        intro entry listed
        rw [eraseP_key nodup] at listed
        simpa using (List.mem_filter.mp listed).2
      exact List.eraseP_of_forall_not gone

/-- The operations of one request leave the same but for the instant. -/
theorem map_undated (last : Changes member command later) (first : Changes member command earlier)
    {id : String} (names : command.changedNode? = some id) (nodes : List Node) :
    (later.apply nodes).map (Node.undated id) = (earlier.apply nodes).map (Node.undated id) := by
  cases last with
  | @update _ node found spec instant =>
    cases first with
    | @update _ _ foundFirst _ before =>
      cases found.symm.trans foundFirst
      cases names
      have own : node.id = id := by
        simpa using List.find?_some (Member.find?_of_inspectNode found)
      have same : (node.withSpec spec instant).id = (node.withSpec spec before).id := rfl
      refine NodeOperation.map_undated_replaceFirst same nodes ?_
      simp only [Node.undated, Node.withSpec, own, if_true]
  | delete found =>
    cases first with
    | delete foundFirst =>
      cases found.symm.trans foundFirst
      rfl

/-- A request to change a node that can be looked up announces one of the changes. -/
theorem exists_announced {operation : NodeOperation} (changes : Changes member command operation)
    (count : Nat) :
    ∃ announced, command.announced? (member.drew count) = some announced ∧
      Changes member command announced := by
  cases changes with
  | update found spec instant =>
    have still : (member.drew count).inspectNode _ = .ok _ := found
    exact ⟨_, by simp only [Command.announced?, still]; rfl, .update found spec _⟩
  | delete found =>
    have still : (member.drew count).inspectNode _ = .ok _ := found
    exact ⟨_, by simp only [Command.announced?, still]; rfl, .delete found⟩

end Changes

/-! ## Members with one registry -/

namespace World

/-- An address finds a member: who calls it gets through to that member, whether or not it takes
operations there. -/
def Finds (world : World n) (address : String) (index : Fin n) : Prop :=
  ∃ reached ∈ world.network.reach address, reached.1 = .member index

instance (world : World n) (address : String) (index : Fin n) :
    Decidable (world.Finds address index) :=
  inferInstanceAs (Decidable (∃ reached ∈ world.network.reach address, _))

namespace Finds

variable {world other : World n} {address : String} {index second : Fin n}

theorem mono (finds : world.Finds address index)
    (keeps : ∀ reached, world.network.reach address = some reached →
      other.network.reach address = some reached) : other.Finds address index := by
  obtain ⟨reached, found, owner⟩ := finds
  exact ⟨reached, keeps reached found, owner⟩

/-- No other member takes operations there. -/
theorem unique (finds : world.Finds address index) (reaches : world.Reaches address second) :
    second = index := by
  obtain ⟨reached, found, owner⟩ := finds
  obtain ⟨target, there, _⟩ := reaches.exists_target
  cases found.symm.trans there
  exact Owner.member.inj owner

/-- If anybody takes operations there, it is that member. -/
theorem reaches (finds : world.Finds address index) (takes : world.Takes address) :
    world.Reaches address index := by
  rcases takes with ⟨other, reaches⟩ | ⟨outsider, target, there⟩
  · exact finds.unique reaches ▸ reaches
  · obtain ⟨reached, found, owner⟩ := finds
    cases found.symm.trans there
    cases owner

end Finds

/-- Some members list exactly each other, each under an identifier of its own and at an address
that finds it. -/
structure Joint (world : World n) (order : List (Fin n)) (entry : Fin n → Node) : Prop where
  nodup : (order.map fun index => (entry index).id).Nodup
  nodes_eq : ∀ index ∈ order, (world.member index).nodes = order.map entry
  nodeId_eq : ∀ index ∈ order, (world.member index).nodeId = some (entry index).id
  found : ∀ index ∈ order, ∃ address ∈ (entry index).peerAddress?, world.Finds address index

namespace Joint

variable {world : World n} {order : List (Fin n)} {entry : Fin n → Node} {index other : Fin n}

theorem nodup_ids (joint : world.Joint order entry) (inside : index ∈ order) :
    ((world.member index).nodes.map Node.id).Nodup := by
  rw [joint.nodes_eq index inside, List.map_map]
  exact joint.nodup

/-- Who is called by a member is one of the others. -/
theorem finds_of_peer (joint : world.Joint order entry) (inside : index ∈ order) {peer : String}
    (listed : peer ∈ world.peers index) : ∃ other, other ≠ index ∧ world.Finds peer other := by
  rw [peers, joint.nodes_eq index inside, joint.nodeId_eq index inside] at listed
  obtain ⟨node, among, apart, address⟩ := mem_peersOf.mp listed
  obtain ⟨other, present, rfl⟩ := List.mem_map.mp among
  obtain ⟨known, there, finds⟩ := joint.found other present
  cases address.symm.trans there
  refine ⟨other, ?_, finds⟩
  rintro rfl
  exact apart rfl

/-- No other member is left out. -/
theorem peer_of_mem (joint : world.Joint order entry) (inside : index ∈ order)
    (present : other ∈ order) (different : other ≠ index) :
    ∃ peer ∈ world.peers index, world.Finds peer other := by
  obtain ⟨peer, there, finds⟩ := joint.found other present
  refine ⟨peer, ?_, finds⟩
  rw [peers, joint.nodes_eq index inside, joint.nodeId_eq index inside]
  refine mem_peersOf.mpr ⟨entry other, List.mem_map_of_mem present, fun same => different ?_, there⟩
  exact (List.inj_on_of_nodup_map joint.nodup inside present (Option.some.inj same)).symm

end Joint

/-! ## Attempts -/

/-- What attempts at a change leave that failed: who announces has only drawn, every other member
has its registry of before or what one of the attempts made of it, everybody is reached where they
were, and the fates to come are those that were to come. -/
structure Halfway (command : Command) (index : Fin n) (order : List (Fin n))
    (before now : World n) : Prop where
  own : ∃ count, now.member index = (before.member index).drew count
  nodes : ∀ other ∈ order, (now.member other).nodes = (before.member other).nodes ∨
    ∃ operation, Changes (before.member index) command operation ∧
      (now.member other).nodes = operation.apply (before.member other).nodes
  reach : ∀ address reached, before.network.reach address = some reached →
    now.network.reach address = some reached
  source : now.network.fates.source = before.network.fates.source

namespace Halfway

variable {command : Command} {index other : Fin n} {order : List (Fin n)} {entry : Fin n → Node}
  {before now : World n} {operation : NodeOperation}

theorem refl (command : Command) (index : Fin n) (order : List (Fin n)) (world : World n) :
    Halfway command index order world world where
  own := ⟨0, rfl⟩
  nodes _ _ := .inl rfl
  reach _ _ := id
  source := rfl

/-- However often a member applies a change now, once or more, it has what the change makes of its
registry of before. -/
theorem iterate (halfway : Halfway command index order before now)
    (joint : before.Joint order entry) (present : other ∈ order)
    (changes : Changes (before.member index) command operation) (count : Nat) :
    operation.apply^[count + 1] (now.member other).nodes =
      operation.apply (before.member other).nodes := by
  have nodup := joint.nodup_ids present
  -- The first time overrides what earlier attempts left, and each later time the one before.
  induction count with
  | zero =>
    rcases halfway.nodes other present with same | ⟨earlier, changed, same⟩
    · rw [same]
      rfl
    · rw [same]
      exact changes.overrides changed nodup
  | succ count ih => rw [Function.iterate_succ_apply', ih, changes.overrides changes nodup]

/-- A member keeps its registry, or has what one of the attempts made of it. -/
theorem nodes_iterate (halfway : Halfway command index order before now)
    (joint : before.Joint order entry) (present : other ∈ order)
    (changes : Changes (before.member index) command operation) {nodes : List Node} {count : Nat}
    (applied : nodes = operation.apply^[count] (now.member other).nodes) :
    nodes = (before.member other).nodes ∨
      ∃ operation, Changes (before.member index) command operation ∧
        nodes = operation.apply (before.member other).nodes := by
  cases count with
  | zero =>
    rw [applied]
    exact halfway.nodes other present
  | succ count => exact .inr ⟨operation, changes, applied.trans
      (halfway.iterate joint present changes count)⟩

theorem peers_eq (halfway : Halfway command index order before now) :
    now.peers index = before.peers index := by
  obtain ⟨count, own⟩ := halfway.own
  rw [peers, own]
  rfl

/-- Whom the member calls is still another one. -/
theorem finds_of_peer (halfway : Halfway command index order before now)
    (joint : before.Joint order entry) (inside : index ∈ order) {peer : String}
    (listed : peer ∈ now.peers index) : ∃ other, other ≠ index ∧ now.Finds peer other := by
  rw [halfway.peers_eq] at listed
  obtain ⟨other, different, finds⟩ := joint.finds_of_peer inside listed
  exact ⟨other, different, finds.mono (halfway.reach peer)⟩

/-- A member does not call itself. -/
theorem away (halfway : Halfway command index order before now) (joint : before.Joint order entry)
    (inside : index ∈ order) : ∀ peer ∈ now.peers index, ¬ now.Reaches peer index := by
  intro peer listed own
  obtain ⟨other, different, finds⟩ := halfway.finds_of_peer joint inside listed
  exact different (finds.unique own).symm

/-- What is announced in an attempt is one of the changes. -/
theorem exists_announced (halfway : Halfway command index order before now)
    (announces : ∃ operation, Changes (before.member index) command operation) :
    ∃ operation, command.announced? (now.member index) = some operation ∧
      Changes (before.member index) command operation := by
  obtain ⟨count, own⟩ := halfway.own
  obtain ⟨operation, changes⟩ := announces
  rw [own]
  exact changes.exists_announced count

/-- One more attempt that fails leaves the same. -/
theorem step_failed (halfway : Halfway command index order before now)
    (joint : before.Joint order entry) (inside : index ∈ order)
    (announces : ∃ operation, Changes (before.member index) command operation) {error : Error}
    (failed : (now.step (perform index command)).1 = .error (.failed error)) :
    Halfway command index order before (now.step (perform index command)).2 := by
  obtain ⟨operation, announced, changes⟩ := halfway.exists_announced announces
  rcases perform_announced announced (halfway.away joint inside) with
    ⟨answer, after, run, _⟩ | ⟨_, contacted, peer, after, run, _, _, spread⟩
  · rw [step, run] at failed
    cases failed
  have members (other : Fin n) :
      (now.step (perform index command)).2.member other = after.member other := by
    rw [member_step, run]
  obtain ⟨took, _, delivered⟩ := spread.took
  refine ⟨?_, fun other present => ?_, fun address reached there => ?_, ?_⟩
  · obtain ⟨count, own⟩ := halfway.own
    obtain ⟨drawn, announcing⟩ := now.member_announcing index command index
    exact ⟨count + drawn, by rw [members, spread.own, announcing, own, Member.drew_drew]⟩
  · have applied : (after.member other).nodes =
        operation.apply^[(now.announcing index command).timesReached took other]
          (now.member other).nodes := by
      rw [delivered.member_eq, nodes_announcing]
    rw [members]
    exact halfway.nodes_iterate joint present changes applied
  · have same := (delivered.reach_eq address).trans (reach_announcing now index command address)
    rw [step, run]
    exact Network.reach_settle (same.trans (halfway.reach address reached there)) now.network
  · obtain ⟨outsiders, same⟩ := delivered.network_eq
    have kept : after.network.fates.source = now.network.fates.source := by
      rw [same, network_announcing]
    rw [step, run, ← halfway.source]
    exact kept

end Halfway

/-- If a request announces something, every call in which it does so is answered. -/
def AllAnswer (world : World n) (index : Fin n) (command : Command) : Prop :=
  ∀ operation ∈ command.announced? (world.member index),
    ∃ after, Answering (command.waiting index) operation (world.announcing index command)
      (world.peers index) after

/-- A call to a member that serves fails only by its fate, or for its length. -/
theorem FailingAt.exists_lost {waiting : Option (Fin n)} {operation : NodeOperation}
    {world after : World n} {contacted : List String} {peer : String} {halt : Halt} {index : Fin n}
    (failing : FailingAt waiting operation world contacted peer halt after)
    (short : operation.isTooLong = false) (reaches : world.Reaches peer index)
    (free : waiting ≠ some index) :
    ∃ later, world.network.fates.met ≤ later ∧ world.network.fates.source later ≠ .delivered := by
  obtain ⟨middle, answering, fails⟩ := failing
  obtain ⟨_, delivered⟩ := answering.delivered
  obtain ⟨outsiders, same⟩ := delivered.network_eq
  refine ⟨middle.network.fates.met, ?_, fun fate => ?_⟩
  · rw [same]
    exact Nat.le_add_right _ _
  · have next : middle.network.fates.next = .delivered := by
      rw [Fates.next]
      rw [same] at fate ⊢
      exact fate
    have there : middle.Reaches peer index :=
      (reaches_congr (delivered.reach_eq peer) index).mpr reaches
    obtain ⟨nodes, last, served⟩ : ∃ nodes last,
        (sendTerminal waiting peer operation).run.run middle = (.ok nodes, last) :=
      ⟨_, _, run_exchange next short there free (run_receive _ index operation)⟩
    rw [← sendTerminal_eq_send] at fails
    cases fails.symm.trans served

/-- Who announces waits for nobody but itself. -/
theorem waiting_ne {command : Command} {index other : Fin n} (different : other ≠ index) :
    command.waiting index ≠ some other := by
  cases command <;> first | exact fun same => different (Option.some.inj same).symm | nofun

namespace Halfway

variable {command : Command} {index : Fin n} {order : List (Fin n)} {entry : Fin n → Node}
  {before now : World n}

/-- All calls of an attempt are answered if all are delivered, to members that take operations,
and what is announced is short enough. -/
theorem allAnswer (halfway : Halfway command index order before now)
    (joint : before.Joint order entry) (inside : index ∈ order)
    (takes : ∀ peer ∈ now.peers index, ∃ other, now.Reaches peer other)
    (short : ∀ operation ∈ command.announced? (now.member index), operation.isTooLong = false)
    (delivered : ∀ later, now.network.fates.met ≤ later →
      now.network.fates.source later = .delivered) : now.AllAnswer index command := by
  intro operation announced
  rcases run : (callAll (command.waiting index) operation (now.peers index)).run.run
    (now.announcing index command) with ⟨halt | _, next⟩
  · -- The peer that failed is another member, so it failed by a fate that was still to come.
    obtain ⟨contacted, peer, later, split, failing⟩ := run_callAll_error.mp run
    have listed : peer ∈ now.peers index := by
      rw [split]
      exact List.mem_append_right _ List.mem_cons_self
    obtain ⟨other, reaches⟩ := takes peer listed
    have different : other ≠ index := by
      rintro rfl
      exact halfway.away joint inside peer listed reaches
    obtain ⟨met, notYet, lost⟩ := failing.exists_lost (short operation announced)
      ((reaches_congr (reach_announcing now index command peer) other).mpr reaches)
      (waiting_ne different)
    rw [network_announcing] at notYet lost
    exact absurd (delivered met notYet) lost
  · exact ⟨next, run_callAll_ok.mp run⟩

/-- An attempt in which all calls are answered succeeds, and leaves every member the registry that
one change makes of that of before. -/
theorem step_answered (halfway : Halfway command index order before now)
    (joint : before.Joint order entry) (inside : index ∈ order)
    (announces : ∃ operation, Changes (before.member index) command operation)
    (answers : now.AllAnswer index command) :
    (∃ answer, (now.step (perform index command)).1 = .ok answer) ∧
      ∃ operation, Changes (before.member index) command operation ∧
        ∀ other ∈ order, ((now.step (perform index command)).2.member other).nodes =
          operation.apply (before.member other).nodes := by
  obtain ⟨operation, announced, changes⟩ := halfway.exists_announced announces
  obtain ⟨next, answering⟩ := answers operation announced
  obtain ⟨answer, run⟩ := (run_perform_announced announced).1 next (run_callAll_ok.mpr answering)
  have spread : SpreadToAll index operation (now.announcing index command)
      (next.applied index operation) := by
    rw [← peers_announcing now index command] at answering
    refine answering.spreadToAll fun peer listed reaches => ?_
    rw [peers_announcing] at listed
    exact halfway.away joint inside peer listed
      ((reaches_congr (reach_announcing now index command peer) index).mp reaches)
  refine ⟨⟨answer, by rw [step, run]⟩, operation, changes, fun other present => ?_⟩
  rw [member_step, run]
  by_cases here : other = index
  · subst here
    obtain ⟨count, own⟩ := halfway.own
    rw [spread.own, nodes_announcing, own]
    rfl
  · -- The member is called, and since the call is answered it takes the operation.
    obtain ⟨peer, known, finds⟩ := joint.peer_of_mem inside present here
    have listed : peer ∈ now.peers index := halfway.peers_eq ▸ known
    have there : (now.announcing index command).Finds peer other :=
      finds.mono fun reached found =>
        (reach_announcing now index command peer).trans (halfway.reach peer reached found)
    have called : (now.announcing index command).timesReached
        ((now.announcing index command).peers index) other ≠ 0 := by
      rw [peers_announcing]
      refine Nat.ne_of_gt (List.countP_pos_iff.mpr ⟨peer, listed, decide_eq_true ?_⟩)
      exact there.reaches (answering.delivered.1 peer listed)
    obtain ⟨count, times⟩ := Nat.exists_eq_succ_of_ne_zero called
    rw [spread.others other here, nodes_announcing, times]
    exact halfway.iterate joint present changes count

/-- Any number of attempts that fail leave the same. -/
theorem after_attempts (joint : before.Joint order entry) (inside : index ∈ order)
    (announces : ∃ operation, Changes (before.member index) command operation) {attempts : Nat}
    (failed : ∀ earlier < attempts, ∃ error,
      ((before.after (List.replicate earlier (index, command))).step (perform index command)).1 =
        .error (.failed error)) :
    Halfway command index order before
      (before.after (List.replicate attempts (index, command))) := by
  induction attempts with
  | zero => exact .refl command index order before
  | succ attempts ih =>
    obtain ⟨error, last⟩ := failed attempts (Nat.lt_succ_self attempts)
    have earlier := ih fun earlier sooner => failed earlier (Nat.lt_succ_of_lt sooner)
    rw [List.replicate_succ', after_append]
    exact earlier.step_failed joint inside announces last

end Halfway

/-- Looking up a node does not fail for a peer. -/
theorem not_ofCall_of_inspectNode {member : Member} {id peer : String} {error : Error}
    (refused : member.inspectNode id = .error error) : ¬ error.OfCall peer := by
  rcases member.inspectNode_cases id with outside | missing | ⟨node, found, _⟩
  · cases outside.symm.trans refused
    exact not_false
  · cases missing.symm.trans refused
    exact not_false
  · cases found.symm.trans refused

/-- If a peer fails at a change then the node to be changed was found. -/
theorem exists_changes_of_failed {world : World n} {index : Fin n} {command : Command}
    {id peer : String} {error : Error} (names : command.changedNode? = some id)
    (ofCall : error.OfCall peer)
    (failed : (world.step (perform index command)).1 = .error (.failed error)) :
    ∃ operation, Changes (world.member index) command operation := by
  cases command with
  | updateNode asked spec =>
    cases looked : (world.member index).inspectNode asked with
    | ok node => exact ⟨_, .update looked spec .epoch⟩
    | error refused =>
      simp only [step, perform, run_answer, run_updateNode, looked] at failed
      cases failed
      exact absurd ofCall (not_ofCall_of_inspectNode looked)
  | deleteNode asked =>
    cases looked : (world.member index).inspectNode asked with
    | ok node => exact ⟨_, .delete looked⟩
    | error refused =>
      simp only [step, perform, run_bind, run_deleteNode, looked] at failed
      cases failed
      exact absurd ofCall (not_ofCall_of_inspectNode looked)
  | _ => cases names

/-- The world with other fates to come. -/
def withFates (world : World n) (fates : Fates) : World n :=
  { world with network := { world.network with fates := fates } }

/-- **Repeating a change repairs what an attempt left halfway.**  Let members list exactly each
other, under identifiers of their own and at addresses that find them, and let one of them be asked
to update or delete a node, which fails, once or several times, since the call to some peer fails,
wherever it stands in the registry and whether or not it took the operation.  If it is asked once
more and every call is answered, it succeeds, and all of these members have the same registry, the
one that a single attempt in which every call is answered would have left, apart from the instant at
which the node was updated. -/
theorem repeating_repairs (world : World n) (order : List (Fin n)) (entry : Fin n → Node)
    (joint : world.Joint order entry) (index : Fin n) (inside : index ∈ order) (id : String)
    (command : Command) (names : command.changedNode? = some id) (attempts : Nat)
    (tried : 0 < attempts) (failed : ∀ earlier < attempts, ∃ error peer, error.OfCall peer ∧
      ((world.after (List.replicate earlier (index, command))).step (perform index command)).1 =
        .error (.failed error)) :
    let halfway := world.after (List.replicate attempts (index, command))
    halfway.AllAnswer index command →
    let repeated := halfway.step (perform index command)
    (∃ answer, repeated.1 = .ok answer) ∧
      (∀ other ∈ order, (repeated.2.member other).nodes = (repeated.2.member index).nodes) ∧
      ∀ fates, (world.withFates fates).AllAnswer index command →
        let single := (world.withFates fates).step (perform index command)
        (∃ answer, single.1 = .ok answer) ∧
          ∀ other ∈ order, (single.2.member other).nodes = (single.2.member index).nodes ∧
            (repeated.2.member other).nodes.map (Node.undated id) =
              (single.2.member other).nodes.map (Node.undated id) := by
  intro halfway answers repeated
  obtain ⟨error, peer, ofCall, first⟩ := failed 0 tried
  have announces := exists_changes_of_failed names ofCall first
  have left : Halfway command index order world halfway := by
    refine .after_attempts joint inside announces fun earlier sooner => ?_
    obtain ⟨error, _, _, fails⟩ := failed earlier sooner
    exact ⟨error, fails⟩
  obtain ⟨succeeds, operation, changes, nodes⟩ :=
    left.step_answered joint inside announces answers
  refine ⟨succeeds, fun other present => ?_, fun fates answersOnce => ?_⟩
  · rw [nodes other present, nodes index inside, joint.nodes_eq other present,
      joint.nodes_eq index inside]
  · have jointOnce : (world.withFates fates).Joint order entry :=
      ⟨joint.nodup, joint.nodes_eq, joint.nodeId_eq, joint.found⟩
    obtain ⟨succeedsOnce, once, changesOnce, nodesOnce⟩ :=
      (Halfway.refl command index order (world.withFates fates)).step_answered jointOnce inside
        announces answersOnce
    refine ⟨succeedsOnce, fun other present => ⟨?_, ?_⟩⟩
    · rw [nodesOnce other present, nodesOnce index inside, jointOnce.nodes_eq other present,
        jointOnce.nodes_eq index inside]
    · rw [nodes other present, nodesOnce other present]
      exact changes.map_undated changesOnce names _

/-- Three members of a swarm, of which the first renames the second: the reply of the second is
lost, then the request to the third, and then everything is delivered. -/
theorem repeating_repairs_twiceFailed :
    let joined := fourMembers.after [(0, .initCluster "" ""),
      (1, .joinCluster ["127.0.0.1:32768"] "" ""), (2, .joinCluster ["127.0.0.1:32768"] "" "")]
    let world := joined.withFates ⟨fun met => if met = 0 then .replyLost
      else if met = 2 then .requestLost else .delivered, 0⟩
    let command : Command := .updateNode "b" { name := "renamed" }
    let halfway := world.after (List.replicate 2 (0, command))
    let repeated := halfway.step (perform 0 command)
    let single := (world.withFates (.always .delivered)).step (perform 0 command)
    (halfway.member 1).nodes ≠ (halfway.member 2).nodes ∧
      (repeated.2.member 0).nodes ≠ (world.member 0).nodes ∧
      (∃ answer, repeated.1 = .ok answer) ∧
      ∀ other ∈ [(0 : Fin 4), 1, 2],
        (repeated.2.member other).nodes = (repeated.2.member 0).nodes ∧
        (repeated.2.member other).nodes.map (Node.undated "b") =
          (single.2.member other).nodes.map (Node.undated "b") := by
  intro joined world command halfway repeated single
  let entry : Fin 4 → Node := fun index =>
    (world.member 0).nodes.getD index ((world.member 0).asNode "" default false)
  have joint : world.Joint [0, 1, 2] entry := by
    refine ⟨?_, ?_, ?_, ?_⟩
    · decide +kernel
    · decide +kernel
    · decide +kernel
    · decide +kernel
  have inside : (0 : Fin 4) ∈ [(0 : Fin 4), 1, 2] := List.mem_cons_self
  have first : halt? (world.step (perform 0 command)).1 =
      some (.failed (.peerUnreachable "127.0.0.1:32769")) := by decide +kernel
  have second : halt? ((world.after [(0, command)]).step (perform 0 command)).1 =
      some (.failed (.peerUnreachable "127.0.0.1:32770")) := by decide +kernel
  have failed : ∀ earlier < 2, ∃ error peer, error.OfCall peer ∧
      ((world.after (List.replicate earlier (0, command))).step (perform 0 command)).1 =
        .error (.failed error) := by
    intro earlier few
    obtain rfl | rfl : earlier = 0 ∨ earlier = 1 := by omega
    · exact ⟨.peerUnreachable _, "127.0.0.1:32769", rfl, halt?_eq_some.mp first⟩
    · exact ⟨.peerUnreachable _, "127.0.0.1:32770", rfl, halt?_eq_some.mp second⟩
  obtain ⟨error, peer, ofCall, fails⟩ := failed 0 (by decide)
  have announces : ∃ operation, Changes (world.member 0) command operation :=
    exists_changes_of_failed rfl ofCall fails
  have left : Halfway command 0 [0, 1, 2] world halfway := by
    refine Halfway.after_attempts joint inside announces fun earlier sooner => ?_
    obtain ⟨error, _, _, fails⟩ := failed earlier sooner
    exact ⟨error, fails⟩
  have short : ∀ operation ∈ command.announced? (halfway.member 0),
      operation.isTooLong = false := by decide +kernel
  have shortOnce : ∀ operation ∈ command.announced? (world.member 0),
      operation.isTooLong = false := by decide +kernel
  have met : halfway.network.fates.met = 3 := by decide +kernel
  have answers : halfway.AllAnswer 0 command := by
    have takes : ∀ peer ∈ halfway.peers 0, ∃ other, halfway.Reaches peer other := by decide +kernel
    refine left.allAnswer joint inside takes short fun later notYet => ?_
    rw [met] at notYet
    rw [left.source]
    exact (if_neg (by omega)).trans (if_neg (by omega))
  have jointOnce : (world.withFates (.always .delivered)).Joint [0, 1, 2] entry :=
    ⟨joint.nodup, joint.nodes_eq, joint.nodeId_eq, joint.found⟩
  have takesOnce : ∀ peer ∈ world.peers 0, ∃ other, world.Reaches peer other := by decide +kernel
  have answersOnce : (world.withFates (.always .delivered)).AllAnswer 0 command :=
    (Halfway.refl command 0 [0, 1, 2] (world.withFates (.always .delivered))).allAnswer jointOnce
      inside takesOnce shortOnce fun _ _ => rfl
  obtain ⟨succeeds, one, once⟩ := repeating_repairs world [0, 1, 2] entry joint 0 inside "b" command
    rfl 2 (by decide) failed answers
  obtain ⟨_, same⟩ := once (.always .delivered) answersOnce
  refine ⟨?_, ?_, succeeds, fun other present => ⟨one other present, (same other present).2⟩⟩
  · decide +kernel
  · decide +kernel

end World

end SwarmManager
