import SwarmManager.Proofs.History
import SwarmManager.Proofs.RegistrySteps

/-!
# Distinct identifiers of nodes

Every identifier that a member lists was drawn by some member, once, for a node that was
about to enter (`Traceable`).  To add a node appends it without looking, so a member lists
no identifier twice as long as it is sent no addition twice.

A member passes an addition on to every peer it lists.  It is sent on twice to a member
that two of the peer addresses reach, and taken twice by the member itself if one of them
reaches it.  The main statement, `node_ids_distinct`, is about runs in which no member that
others join through lists such addresses (`ListsOnce`).
-/

namespace SwarmManager

set_option autoImplicit false

variable {n : Nat}

/-! ## Identifiers under operations -/

namespace NodeOperation

variable {operation : NodeOperation} {nodes : List Node}

/-- What operations of a kind do to the identifiers of a registry. -/
theorem map_id_apply (operation : NodeOperation) (nodes : List Node) :
    (operation.apply nodes).map Node.id =
      match operation.kind with
      | .add => nodes.map Node.id ++ [operation.node.id]
      | .update => nodes.map Node.id
      | .delete => (nodes.map Node.id).eraseP fun id => id == operation.node.id := by
  obtain ⟨kind, node⟩ := operation
  cases kind with
  | add => exact List.map_append
  | update => exact map_id_replaceFirst node nodes
  | delete =>
    change (nodes.eraseP fun entry => entry.id == node.id).map Node.id =
      (nodes.map Node.id).eraseP fun id => id == node.id
    rw [List.eraseP_map]
    rfl

/-- Applying an operation lists no new identifier but that of an added node. -/
theorem mem_ids_apply {id : String} (listed : id ∈ (operation.apply nodes).map Node.id) :
    id ∈ nodes.map Node.id ∨ operation.kind = .add ∧ id = operation.node.id := by
  rw [map_id_apply] at listed
  cases kind : operation.kind <;> rw [kind] at listed
  · rcases List.mem_append.mp listed with old | new
    · exact .inl old
    · exact .inr ⟨rfl, List.mem_singleton.mp new⟩
  · exact .inl listed
  · exact .inl (List.mem_of_mem_eraseP listed)

theorem mem_ids_iterate {id : String} {times : Nat}
    (listed : id ∈ (operation.apply^[times] nodes).map Node.id) :
    id ∈ nodes.map Node.id ∨ operation.kind = .add ∧ id = operation.node.id := by
  induction times generalizing nodes with
  | zero => exact .inl listed
  | succ times ih =>
    rw [Function.iterate_succ_apply] at listed
    rcases ih listed with old | new
    · exact mem_ids_apply old
    · exact .inr new

/-- Identifiers stay distinct under an operation that adds no listed node. -/
theorem nodup_ids_apply (nodup : (nodes.map Node.id).Nodup)
    (fresh : operation.kind = .add → operation.node.id ∉ nodes.map Node.id) :
    ((operation.apply nodes).map Node.id).Nodup := by
  rw [map_id_apply]
  cases kind : operation.kind with
  | add => exact List.nodup_append.mpr ⟨nodup, List.nodup_singleton _, fun id old other new same =>
      fresh kind (List.mem_singleton.mp new ▸ same ▸ old)⟩
  | update => exact nodup
  | delete => exact nodup.sublist List.eraseP_sublist

/-- They do so however often it is applied, if a node is added at most once. -/
theorem nodup_ids_iterate {times : Nat} (nodup : (nodes.map Node.id).Nodup)
    (fresh : operation.kind = .add → operation.node.id ∉ nodes.map Node.id ∧ times ≤ 1) :
    ((operation.apply^[times] nodes).map Node.id).Nodup := by
  induction times with
  | zero => exact nodup
  | succ times ih =>
    rw [Function.iterate_succ_apply']
    refine nodup_ids_apply (ih fun adds => ?_) fun adds => ?_
    · exact ⟨(fresh adds).1, Nat.le_of_succ_le (fresh adds).2⟩
    · obtain ⟨new, once⟩ := fresh adds
      obtain rfl : times = 0 := by omega
      exact new

end NodeOperation

/-- What a client has announced changes or removes a node. -/
theorem Command.kind_ne_add {member : Member} {operation : NodeOperation} (command : Command)
    (client : Http.isForPeers command = false)
    (announced : command.announced? member = some operation) : operation.kind ≠ .add := by
  cases command with
  | updateNode id spec =>
    obtain ⟨node, _, rfl⟩ := Option.map_eq_some_iff.mp announced
    rintro ⟨⟩
  | deleteNode id =>
    obtain ⟨node, _, rfl⟩ := Option.map_eq_some_iff.mp announced
    rintro ⟨⟩
  | handleOperation asked delivery => exact absurd client (by simp [Http.isForPeers])
  | _ => cases announced

/-! ## Identifiers that were drawn -/

namespace World

/-- A delivery lists no new identifier but that of an added node. -/
theorem Delivered.mem_ids {before after : World n} {operation : NodeOperation}
    {took : List String} {calls : Nat} (delivered : Delivered operation took calls before after)
    {index : Fin n} {id : String} (listed : id ∈ (after.member index).nodes.map Node.id) :
    id ∈ (before.member index).nodes.map Node.id ∨
      operation.kind = .add ∧ id = operation.node.id := by
  rw [delivered.member_eq] at listed
  exact NodeOperation.mem_ids_iterate listed

/-- Between two states of a world nothing happened to the supplies of members but draws. -/
def DrawsOn (before after : World n) : Prop :=
  ∀ index, ∃ count, (after.member index).supply = (before.member index).supply.ahead count

namespace DrawsOn

variable {before middle after : World n} {index : Fin n}

theorem of_supply_eq (same : ∀ index, (after.member index).supply = (before.member index).supply) :
    DrawsOn before after :=
  fun index => ⟨0, same index⟩

theorem trans (early : DrawsOn before middle) (late : DrawsOn middle after) :
    DrawsOn before after := by
  intro index
  obtain ⟨earlier, one⟩ := early index
  obtain ⟨later, two⟩ := late index
  exact ⟨earlier + later, by rw [two, one, Supply.ahead_ahead]⟩

theorem setMember (index : Fin n) {member : Member}
    (supply : ∃ count, member.supply = (before.member index).supply.ahead count) :
    DrawsOn before (before.setMember index member) := by
  intro other
  rw [member_setMember]
  split
  next here => exact here ▸ supply
  next => exact ⟨0, rfl⟩

theorem delivered {operation : NodeOperation} {took : List String} {calls : Nat}
    (delivered : Delivered operation took calls before after) : DrawsOn before after :=
  of_supply_eq fun index => by rw [delivered.member_eq]

theorem opens {address advertise : String} {isLeader : Bool} {endpoint : Endpoint} {node : Node}
    (opens : Opens before index address advertise isLeader endpoint node after) :
    DrawsOn before after := by
  intro other
  obtain ⟨count, drew⟩ := opens.member_drew other
  exact ⟨count, by rw [drew]; rfl⟩

theorem announcing (before : World n) (index : Fin n) (command : Command) :
    DrawsOn before (before.announcing index command) := by
  intro other
  obtain ⟨count, drew⟩ := before.member_announcing index command other
  exact ⟨count, by rw [drew]; rfl⟩

theorem registryStep {command : Command} {outcome : Except Halt Answer}
    (step : RegistryStep before index command outcome after) : DrawsOn before after := by
  cases step with
  | kept same quiet => exact fun other => (same.member other).supply
  | started opening => exact (opens opening).trans (setMember index ⟨3, rfl⟩)
  | joined opening reaches apart taken spared =>
    have next := (opens opening).trans (delivered taken)
    exact next.trans (setMember index ⟨3, by rw [spared]; rfl⟩)
  | notJoined opening taken which spared members system sockets =>
    have next := (opens opening).trans (delivered taken)
    exact next.trans (of_supply_eq fun other => by rw [members])
  | left inside =>
    have closed : DrawsOn before ({ before with network := before.closing index } : World n) :=
      of_supply_eq fun _ => rfl
    exact closed.trans (setMember index ⟨0, rfl⟩)
  | spread announced taken spared =>
    have next := (announcing before index command).trans (delivered taken)
    exact next.trans (setMember index ⟨0, rfl⟩)
  | notSpread announced taken first spared =>
    exact (announcing before index command).trans (delivered taken)

/-- What was drawn stays drawn. -/
theorem used (draws : DrawsOn before after) {id : String}
    (used : ∃ owner, (before.member owner).supply.Used id) :
    ∃ owner, (after.member owner).supply.Used id := by
  obtain ⟨owner, used⟩ := used
  obtain ⟨count, same⟩ := draws owner
  exact ⟨owner, same ▸ used.ahead count⟩

end DrawsOn

/-- Every listed identifier was drawn by a member, no two draws share one, and nobody but
members listens. -/
structure Traceable (world : World n) : Prop where
  apart : Supply.Apart fun index => (world.member index).supply
  drawn : ∀ index, ∀ id ∈ (world.member index).nodes.map Node.id,
    ∃ owner, (world.member owner).supply.Used id
  inside : world.Inside

namespace Traceable

variable {before after : World n} {index : Fin n}

/-- Members draw on, list what was drawn, and listen. -/
theorem of_drawsOn (traceable : before.Traceable) (draws : DrawsOn before after)
    (drawn : ∀ other, ∀ id ∈ (after.member other).nodes.map Node.id,
      ∃ owner, (before.member owner).supply.Used id)
    (inside : after.Inside) : after.Traceable where
  apart first second position other same := by
    obtain ⟨_, one⟩ := draws first
    obtain ⟨_, two⟩ := draws second
    dsimp only at same
    rw [one, two] at same
    exact traceable.apart first second position other same
  drawn other id listed := draws.used (drawn other id listed)
  inside := inside

/-- A draw to come is none that was made. -/
theorem next_ne_of_used (traceable : before.Traceable) (index : Fin n) {id : String}
    (used : ∃ owner, (before.member owner).supply.Used id) :
    (before.member index).supply.next.id ≠ id := by
  rintro rfl
  obtain ⟨owner, position, behind, same⟩ := used
  obtain ⟨rfl, rfl⟩ := traceable.apart owner index position _ same
  exact Nat.lt_irrefl _ behind

/-- So it is listed nowhere. -/
theorem next_not_listed (traceable : before.Traceable) (index other : Fin n) :
    (before.member index).supply.next.id ∉ (before.member other).nodes.map Node.id :=
  fun listed => traceable.next_ne_of_used index (traceable.drawn other _ listed) rfl

theorem delivered (traceable : before.Traceable) {operation : NodeOperation} {took : List String}
    {calls : Nat} (delivered : Delivered operation took calls before after)
    (used : operation.kind = .add → ∃ owner, (before.member owner).supply.Used operation.node.id) :
    after.Traceable := by
  refine traceable.of_drawsOn (.delivered delivered) (fun other id listed => ?_) ?_
  · rcases delivered.mem_ids listed with old | ⟨adds, rfl⟩
    · exact traceable.drawn other id old
    · exact used adds
  · intro socket present
    rw [Network.openSockets, delivered.sockets_eq] at present
    exact traceable.inside socket present

theorem opens (traceable : before.Traceable) {address advertise : String} {isLeader : Bool}
    {endpoint : Endpoint} {node : Node} {opened : World n}
    (opens : Opens before index address advertise isLeader endpoint node opened) :
    opened.Traceable ∧ (opened.member index).supply.Used node.id := by
  constructor
  · refine traceable.of_drawsOn (.opens opens) (fun other id listed => ?_)
      (opens.inside traceable.inside)
    rw [opens.nodes_eq] at listed
    exact traceable.drawn other id listed
  · rw [opens.member_self, opens.node_eq]
    exact Supply.used_next_ahead _ Nat.zero_lt_one

/-- A member may change in what is not about draws, and list what was drawn. -/
theorem setMember (traceable : before.Traceable) (index : Fin n) {member : Member}
    (supply : ∃ count, member.supply = (before.member index).supply.ahead count)
    (drawn : ∀ id ∈ member.nodes.map Node.id, ∃ owner, (before.member owner).supply.Used id) :
    (before.setMember index member).Traceable := by
  refine traceable.of_drawsOn (.setMember index supply) (fun other id listed => ?_)
    traceable.inside
  rw [member_setMember] at listed
  split at listed
  · exact drawn id listed
  · exact traceable.drawn other id listed

/-- A draw before an announcement is no matter. -/
theorem announcing (traceable : before.Traceable) (index : Fin n) (command : Command) :
    (before.announcing index command).Traceable := by
  refine traceable.of_drawsOn (.announcing before index command) (fun other id listed => ?_) ?_
  · rw [nodes_announcing] at listed
    exact traceable.drawn other id listed
  · rw [Inside, network_announcing]
    exact traceable.inside

/-- A member that leaves lists nobody. -/
theorem left (traceable : before.Traceable) (index : Fin n) :
    (({ before with network := before.closing index } : World n).setMember index
      (before.member index).outside).Traceable := by
  have closed : ({ before with network := before.closing index } : World n).Traceable := by
    refine ⟨traceable.apart, traceable.drawn, fun socket present => ?_⟩
    obtain ⟨old, isOpen⟩ := List.mem_filter.mp present
    refine traceable.inside socket (List.mem_filter.mpr ⟨?_, isOpen⟩)
    simp only [closing] at old
    split at old
    · exact List.mem_of_mem_filter old
    · exact old
  exact closed.setMember index ⟨0, rfl⟩ fun id none => absurd none List.not_mem_nil

theorem settle (traceable : before.Traceable) (earlier : Network n) :
    ({ before with network := before.network.settle earlier } : World n).Traceable := by
  refine ⟨traceable.apart, traceable.drawn, fun socket present => ?_⟩
  rw [Network.openSockets_settle] at present
  exact traceable.inside socket present

/-- What a request of a client does, it keeps identifiers traceable. -/
theorem registryStep (traceable : before.Traceable) {command : Command}
    {outcome : Except Halt Answer} (step : RegistryStep before index command outcome after)
    (client : Http.isForPeers command = false) : after.Traceable := by
  cases step with
  | kept same quiet =>
    refine traceable.of_drawsOn (fun other => (same.member other).supply)
      (fun other id listed => ?_) ?_
    · rw [(same.member other).nodes] at listed
      exact traceable.drawn other id listed
    · rw [Inside, same.network_eq]
      exact traceable.inside
  | started opens =>
    obtain ⟨opened, used⟩ := traceable.opens opens
    refine opened.setMember index ⟨3, rfl⟩ fun id listed => ?_
    rw [Member.entered, List.map_append] at listed
    rcases List.mem_append.mp listed with old | new
    · refine opened.drawn index id ?_
      rw [opens.member_self]
      exact old
    · exact ⟨index, List.mem_singleton.mp new ▸ used⟩
  | joined opens reaches apart delivered spared =>
    obtain ⟨opened, used⟩ := traceable.opens opens
    have next := opened.delivered delivered fun _ => ⟨index, used⟩
    exact next.setMember index ⟨3, by rw [spared]; rfl⟩ (next.drawn _)
  | notJoined opens delivered taken spared members system sockets =>
    obtain ⟨opened, used⟩ := traceable.opens opens
    have next := opened.delivered delivered fun _ => ⟨index, used⟩
    refine next.of_drawsOn (.of_supply_eq fun other => by rw [members])
      (fun other id listed => ?_) ?_
    · rw [members] at listed
      exact next.drawn other id listed
    · rw [Inside]
      rcases sockets with same | ⟨_, same⟩ <;> rw [same]
      · exact traceable.inside
      · exact opened.inside
  | left inside => exact traceable.left index
  | spread announced delivered spared =>
    have next := (traceable.announcing index command).delivered delivered fun adds =>
      absurd adds (command.kind_ne_add client announced)
    refine next.setMember index ⟨0, rfl⟩ fun id listed => ?_
    rcases NodeOperation.mem_ids_apply listed with old | ⟨adds, _⟩
    · exact next.drawn index id old
    · exact absurd adds (command.kind_ne_add client announced)
  | notSpread announced delivered first spared =>
    exact (traceable.announcing index command).delivered delivered fun adds =>
      absurd adds (command.kind_ne_add client announced)

end Traceable

/-! ## Additions that are taken once -/

/-- The peer addresses that a member lists reach no other member twice, and the member
itself not at all. -/
def ListsOnce (world : World n) (through : Fin n) : Prop :=
  ∀ other, world.timesReached (world.peers through) other ≤ if other = through then 0 else 1

instance (world : World n) (through : Fin n) : Decidable (world.ListsOnce through) :=
  inferInstanceAs (Decidable (∀ _, _ ≤ _))

/-- Who listens anew is reached by no address that reached others. -/
theorem Opens.reaches_iff {before opened : World n} {index other : Fin n}
    {address advertise peer : String} {isLeader : Bool} {endpoint : Endpoint} {node : Node}
    (opens : Opens before index address advertise isLeader endpoint node opened)
    (apart : other ≠ index) : opened.Reaches peer other ↔ before.Reaches peer other := by
  obtain ⟨network, listened, rfl⟩ := opens.listened
  obtain ⟨_, portsChosen, rfl⟩ := Network.listen_eq_ok listened
  constructor
  · intro reaches
    obtain ⟨target, reached, takes⟩ := reaches.exists_target
    obtain ⟨called, socket, located, found, owned⟩ := Network.reach_eq_some.mp reached
    refine .of_reach (Network.reach_eq_some.mpr ⟨called, socket, located, ?_, owned⟩) takes
    -- The new socket is another member's, so the socket that is found is an old one.
    simp only [listening, network_setMember, Network.opened, List.find?_append,
      Option.or_eq_some_iff] at found
    rcases found with old | ⟨_, new⟩
    · exact old
    · obtain rfl := List.mem_singleton.mp (List.mem_of_find?_eq_some new)
      exact absurd (Owner.member.inj owned) (Ne.symm apart)
  · exact fun reaches =>
      reaches.mono fun _ there => Network.reach_opened there endpoint (.member index)

/-- An addition that is passed on through a member that lists others once comes to every
member but the new one at most once. -/
theorem ListsOnce.timesReached_le {before opened : World n} {index through other : Fin n}
    {address advertise remote : String} {isLeader : Bool} {endpoint : Endpoint} {node : Node}
    (once : before.ListsOnce through)
    (opens : Opens before index address advertise isLeader endpoint node opened)
    (reaches : opened.Reaches remote through) (apart : through ≠ index) (here : other ≠ index)
    {took : List String} (first : took <+: opened.peers through ++ [remote]) :
    opened.timesReached took other ≤ 1 := by
  have peers : opened.peers through = before.peers through := by
    simp only [World.peers, opens.member_of_ne apart]
  have counted : opened.timesReached (before.peers through) other =
      before.timesReached (before.peers through) other :=
    List.countP_congr fun peer _ => by
      rw [decide_eq_true_iff, decide_eq_true_iff, opens.reaches_iff here]
  have last := timesReached_singleton reaches other
  have all : opened.timesReached (opened.peers through ++ [remote]) other ≤ 1 := by
    rw [timesReached, List.countP_append, peers]
    have passedOn := once other
    rw [← counted] at passedOn
    rw [timesReached] at passedOn last
    split at passedOn <;> split at last <;> omega
  exact Nat.le_trans first.sublist.countP_le all

/-- No member lists an identifier twice. -/
def DistinctIds (world : World n) : Prop :=
  ∀ index, ((world.member index).nodes.map Node.id).Nodup

end World

/-- A request to join goes through a member that lists others once. -/
def Event.JoinsOnce (event : Event n) : Prop :=
  match event.command with
  | .joinCluster remotes _ _ => ∀ remote ∈ remotes.head?, ∀ through,
      event.world.Reaches remote through → event.world.ListsOnce through
  | _ => True

instance : (event : Event n) → Decidable event.JoinsOnce
  | ⟨world, _, .joinCluster remotes _ _⟩ =>
      inferInstanceAs (Decidable (∀ remote ∈ remotes.head?, ∀ through,
        world.Reaches remote through → world.ListsOnce through))
  | ⟨_, _, .initCluster _ _⟩ | ⟨_, _, .leaveCluster⟩ | ⟨_, _, .inspectSwarm⟩ | ⟨_, _, .nodeId⟩
  | ⟨_, _, .peerAddress⟩ | ⟨_, _, .updateNode _ _⟩ | ⟨_, _, .deleteNode _⟩
  | ⟨_, _, .inspectNode _⟩ | ⟨_, _, .listNodes⟩ | ⟨_, _, .handleOperation _ _⟩
  | ⟨_, _, .createService _⟩ | ⟨_, _, .updateService _ _⟩ | ⟨_, _, .deleteService _⟩
  | ⟨_, _, .inspectService _⟩ | ⟨_, _, .listServices _⟩ | ⟨_, _, .inspectTask _⟩
  | ⟨_, _, .listTasks _⟩ | ⟨_, _, .listInstances⟩ | ⟨_, _, .inspectInstance _⟩ =>
      inferInstanceAs (Decidable True)

namespace World.DistinctIds

variable {before after : World n} {index : Fin n}

theorem delivered (distinct : before.DistinctIds) {operation : NodeOperation} {took : List String}
    {calls : Nat} (delivered : Delivered operation took calls before after)
    {other : Fin n} (fresh : operation.kind = .add →
      operation.node.id ∉ (before.member other).nodes.map Node.id ∧
        before.timesReached took other ≤ 1) :
    ((after.member other).nodes.map Node.id).Nodup := by
  rw [delivered.member_eq]
  exact NodeOperation.nodup_ids_iterate (distinct other) fresh

/-- To change or remove nodes keeps identifiers distinct. -/
theorem changed (distinct : before.DistinctIds) {operation : NodeOperation} {took : List String}
    {calls : Nat} (delivered : Delivered operation took calls before after)
    (changes : operation.kind ≠ .add) : after.DistinctIds :=
  fun _ => distinct.delivered delivered fun adds => absurd adds changes

/-- A member may list other nodes. -/
theorem setMember (distinct : before.DistinctIds) {member : Member}
    (nodup : (member.nodes.map Node.id).Nodup) : (before.setMember index member).DistinctIds := by
  intro other
  rw [member_setMember]
  split
  · exact nodup
  · exact distinct other

theorem opens (distinct : before.DistinctIds) {address advertise : String} {isLeader : Bool}
    {endpoint : Endpoint} {node : Node} {opened : World n}
    (opens : Opens before index address advertise isLeader endpoint node opened) :
    opened.DistinctIds := by
  intro other
  rw [opens.nodes_eq]
  exact distinct other

theorem announcing (distinct : before.DistinctIds) (index : Fin n) (command : Command) :
    (before.announcing index command).DistinctIds := by
  intro other
  rw [nodes_announcing]
  exact distinct other

/-- An addition leaves identifiers distinct if it comes to nobody twice but, maybe, the
new member, which takes nothing. -/
theorem added (distinct : before.DistinctIds) (traceable : before.Traceable)
    {address advertise : String} {isLeader : Bool} {endpoint : Endpoint} {node : Node}
    {opened next : World n} {took : List String} {calls : Nat}
    (opens : Opens before index address advertise isLeader endpoint node opened)
    (delivered : Delivered (.add node) took calls opened next)
    (spared : next.member index = opened.member index)
    (once : ∀ other ≠ index, opened.timesReached took other ≤ 1) : next.DistinctIds := by
  have opened_distinct := distinct.opens opens
  intro other
  by_cases here : other = index
  · rw [here, spared]
    exact opened_distinct index
  · refine opened_distinct.delivered delivered fun _ => ⟨?_, once other here⟩
    rw [opens.member_of_ne here, opens.node_eq]
    exact traceable.next_not_listed index other

/-- What a request of a client does, it keeps identifiers distinct, unless it is a request
to join through a member that lists others twice. -/
theorem registryStep (distinct : before.DistinctIds) (traceable : before.Traceable)
    {command : Command} {outcome : Except Halt Answer}
    (step : RegistryStep before index command outcome after)
    (client : Http.isForPeers command = false)
    (once : (Event.mk before index command).JoinsOnce) : after.DistinctIds := by
  cases step with
  | kept same quiet =>
    intro other
    rw [(same.member other).nodes]
    exact distinct other
  | @started address advertise endpoint node opened opens =>
    have fresh : node.id ∉ (before.member index).nodes.map Node.id := by
      rw [opens.node_eq]
      exact traceable.next_not_listed index index
    have appended : (((NodeOperation.add node).apply (before.member index).nodes).map
        Node.id).Nodup := NodeOperation.nodup_ids_apply (distinct index) fun _ => fresh
    exact (distinct.opens opens).setMember appended
  | joined opens reaches apart delivered spared =>
    have listsOnce := once _ rfl _ ((opens.reaches_iff apart).mp reaches)
    have next := distinct.added traceable opens delivered spared fun other here =>
      listsOnce.timesReached_le opens reaches apart here List.prefix_rfl
    exact next.setMember (next _)
  | notJoined opens delivered taken spared members system sockets =>
    have next := distinct.added traceable opens delivered spared fun other here => by
      rcases taken with rfl | ⟨through, reaches, apart, first⟩
      · exact Nat.zero_le 1
      · have listsOnce := once _ rfl through ((opens.reaches_iff apart).mp reaches)
        exact listsOnce.timesReached_le opens reaches apart here first
    intro other
    rw [members]
    exact next other
  | left inside => exact distinct.setMember List.nodup_nil
  | spread announced delivered spared =>
    have changes := command.kind_ne_add client announced
    have next := (distinct.announcing index command).changed delivered changes
    exact next.setMember
      (NodeOperation.nodup_ids_apply (next index) fun adds => absurd adds changes)
  | notSpread announced delivered first spared =>
    exact (distinct.announcing index command).changed delivered
      (command.kind_ne_add client announced)

end World.DistinctIds

/-! ## Runs -/

namespace World

variable {settings : Fin n → Settings} {machine : Fin n → Machine} {observer : Fin n → Observer}
  {supply : Fin n → Supply} {network : Network n}

theorem traceable_start (apart : Supply.Apart supply) (nobody : network.sockets = []) :
    (start settings machine observer supply network).Traceable where
  apart first second position other same := by
    simp only [member_start] at same
    exact apart first second position other same
  drawn index id listed := by
    rw [member_start] at listed
    exact absurd listed List.not_mem_nil
  inside socket present := by
    have none : (start settings machine observer supply network).network.openSockets = [] := by
      rw [Network.openSockets, start, nobody, List.filter_nil]
    rw [none] at present
    exact absurd present List.not_mem_nil

/-- What a step of a client does. -/
theorem registryStep_step {world : World n} (inside : world.Inside) (index : Fin n)
    {command : Command} (client : Http.isForPeers command = false) :
    ∃ after, RegistryStep world index command (world.step (perform index command)).1 after ∧
      (world.step (perform index command)).2 =
        { after with network := after.network.settle world.network } :=
  ⟨_, registryStep_perform inside index client, rfl⟩

/-- In runs of clients identifiers stay traceable. -/
theorem Traceable.after {world : World n} (traceable : world.Traceable)
    (requests : List (Fin n × Command))
    (clients : ∀ request ∈ requests, Http.isForPeers request.2 = false) :
    (world.after requests).Traceable := by
  induction requests using List.reverseRecOn with
  | nil => exact traceable
  | append_singleton requests request ih =>
    have earlier := ih fun other present => clients other (List.mem_append_left _ present)
    have client := clients request (List.mem_append_right _ (List.mem_singleton_self request))
    obtain ⟨after, step, settled⟩ := registryStep_step earlier.inside request.1 client
    rw [after_append, settled]
    exact (earlier.registryStep step client).settle _

/-- **No member lists an identifier twice**, after any run of requests of clients, on any
network, if no request to join goes through a member of whose peer addresses two reach the
same member or one reaches the member itself. -/
theorem node_ids_distinct (apart : Supply.Apart supply) (nobody : network.sockets = [])
    (requests : List (Fin n × Command))
    (clients : ∀ request ∈ requests, Http.isForPeers request.2 = false)
    (once : ∀ event ∈ (start settings machine observer supply network).history requests,
      event.JoinsOnce) (index : Fin n) :
    ((((start settings machine observer supply network).after requests).member index).nodes.map
      Node.id).Nodup := by
  suffices distinct :
      ((start settings machine observer supply network).after requests).DistinctIds from
    distinct index
  induction requests using List.reverseRecOn with
  | nil =>
    intro index
    change (((start settings machine observer supply network).member index).nodes.map
      Node.id).Nodup
    rw [member_start]
    exact List.nodup_nil
  | append_singleton requests request ih =>
    have before : ∀ other ∈ requests, Http.isForPeers other.2 = false :=
      fun other present => clients other (List.mem_append_left _ present)
    rw [history_append] at once
    have earlier := ih before fun event present => once event (List.mem_append_left _ present)
    have traceable : ((start settings machine observer supply network).after requests).Traceable :=
      (traceable_start apart nobody).after requests before
    have client := clients request (List.mem_append_right _ (List.mem_singleton_self request))
    obtain ⟨after, step, settled⟩ := registryStep_step traceable.inside request.1 client
    have next : after.DistinctIds := earlier.registryStep traceable step client
      (once _ (List.mem_append_right _ (List.mem_singleton_self _)))
    rw [after_append, settled]
    exact next

theorem node_ids_distinct_comingAndGoing :
    let requests := (0, .initCluster "" "") :: comingAndGoing
    (((twoMembers.after requests).member 0).nodes.map Node.id) = ["a", "bbbbbb"] ∧
      ∀ index, (((twoMembers.after requests).member index).nodes.map Node.id).Nodup := by
  intro requests
  have different : Function.Injective fun index : Fin 2 => if index = 0 then 'a' else 'b' := by
    unfold Function.Injective
    decide
  exact ⟨by decide +kernel, node_ids_distinct (Supply.apart_tally different) rfl requests
    (by decide) (by decide +kernel)⟩

/-- A member that is listed twice is sent the next addition twice, although all members
advertise where they listen, and no request waits forever. -/
theorem id_listed_twice :
    (∀ request ∈ listedTwice, Http.isForPeers request.2 = false) ∧
      (∀ event ∈ fourMembers.history listedTwice, halt? event.outcome ≠ some .stalled) ∧
      ((fourMembers.after listedTwice).member 2).nodes.map Node.id =
        ["a", "b", "ccccc", "d", "d"] := by
  decide +kernel

end World

end SwarmManager
