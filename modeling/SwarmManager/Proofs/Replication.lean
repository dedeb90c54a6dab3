import SwarmManager.Proofs.Agreement
import SwarmManager.Proofs.Failure

/-!
# Keeping the registry replicated

A registry is replicated if the current members agree on it and can send to each other
(`Replicated`).  Each of the few changes that requests about membership are made of
keeps it replicated: draws, the settling of the network, an operation that all current
members apply, a member that leaves after it was removed, and one that enters.
-/

namespace SwarmManager

set_option autoImplicit false

variable {n : Nat}

/-- Two entries of one member, which may differ in what users edit and in when they did
so. -/
structure Node.SameMember (node other : Node) : Prop where
  id_eq : node.id = other.id
  managerStatus_eq : node.managerStatus = other.managerStatus
  createdAt_eq : node.createdAt = other.createdAt

namespace Node.SameMember

theorem refl (node : Node) : node.SameMember node := ⟨rfl, rfl, rfl⟩

theorem trans {first second third : Node} (early : first.SameMember second)
    (late : second.SameMember third) : first.SameMember third :=
  ⟨early.id_eq.trans late.id_eq, early.managerStatus_eq.trans late.managerStatus_eq,
    early.createdAt_eq.trans late.createdAt_eq⟩

/-- A node stays the same member with another spec. -/
theorem withSpec (node : Node) (spec : NodeSpec) (instant : Instant) :
    (node.withSpec spec instant).SameMember node := ⟨rfl, rfl, rfl⟩

theorem peerAddress?_eq {node other : Node} (same : node.SameMember other) :
    node.peerAddress? = other.peerAddress? :=
  congrArg (Option.map ManagerStatus.address) same.managerStatus_eq

theorem isLeader_eq {node other : Node} (same : node.SameMember other) :
    node.isLeader = other.isLeader :=
  congrArg (Option.any ManagerStatus.isLeader) same.managerStatus_eq

end Node.SameMember

namespace World

/-- The current members agree on a registry, and can send to each other. -/
structure Replicated (world : World n) (order : List (Fin n)) (entry : Fin n → Node) : Prop where
  agreed : world.Agreed order entry
  tidy : world.Tidy
  listening : world.Listening order entry

/-! ## Tidy worlds -/

/-- What a member may do in a tidy world: draw, take an identifier that it drew, and
listen where nobody else does. -/
structure KeepsTidy (before after : World n) (index : Fin n) : Prop where
  drew : ∃ count, (after.member index).supply = (before.member index).supply.ahead count
  used : ∀ id, (after.member index).nodeId = some id →
    (before.member index).nodeId = some id ∨ (after.member index).supply.Used id
  opened : ∀ endpoint, (after.member index).listener = some endpoint →
    ⟨endpoint, .member index, true⟩ ∈ after.network.sockets
  owned : ∀ endpoint, (after.member index).listener = some endpoint →
    ∀ socket ∈ after.network.sockets, socket.endpoint = endpoint → socket.owner = .member index

namespace Tidy

variable {world after : World n} {index : Fin n}

/-- A world stays tidy if every member does no more than it may. -/
theorem of_members (tidy : world.Tidy) (delivering : after.network.fates.AllDelivered)
    (each : ∀ index, KeepsTidy world after index) : after.Tidy where
  delivering := delivering
  apart first second position other same := by
    obtain ⟨_, one⟩ := (each first).drew
    obtain ⟨_, two⟩ := (each second).drew
    simp only [one, two] at same
    exact tidy.apart first second position other same
  used index id named := by
    rcases (each index).used id named with before | drawn
    · obtain ⟨count, supply⟩ := (each index).drew
      rw [supply]
      exact (tidy.used index id before).ahead count
    · exact drawn
  opened index := (each index).opened
  owned index := (each index).owned

/-- A member that only draws and changes its nodes depends on what others do to its
endpoint. -/
theorem keeps_of_listener (same : ∃ count nodes,
      after.member index = { (world.member index).drew count with nodes := nodes })
    (opened : ∀ endpoint, (world.member index).listener = some endpoint →
      ⟨endpoint, .member index, true⟩ ∈ after.network.sockets)
    (owned : ∀ endpoint, (world.member index).listener = some endpoint →
      ∀ socket ∈ after.network.sockets, socket.endpoint = endpoint → socket.owner = .member index) :
    KeepsTidy world after index := by
  obtain ⟨count, nodes, member⟩ := same
  refine ⟨⟨count, by rw [member]; rfl⟩, ?_, ?_, ?_⟩
  · intro id named
    rw [member] at named
    exact .inl named
  · intro endpoint listens
    rw [member] at listens
    exact opened endpoint listens
  · intro endpoint listens
    rw [member] at listens
    exact owned endpoint listens

/-- The endpoints of members are no matter if a free one is opened. -/
theorem keeps_of_opened (tidy : world.Tidy) (same : ∃ count nodes,
      after.member index = { (world.member index).drew count with nodes := nodes })
    {endpoint : Endpoint} {owner : Owner n} (free : world.network.isTaken endpoint = false)
    (sockets : after.network.sockets = world.network.sockets ++ [⟨endpoint, owner, true⟩]) :
    KeepsTidy world after index := by
  refine keeps_of_listener same ?_ ?_ <;> intro place listens <;> rw [sockets]
  · exact List.mem_append_left _ (tidy.opened index place listens)
  · intro socket present at_
    rcases List.mem_append.mp present with old | new
    · exact tidy.owned index place listens socket old at_
    · rw [List.mem_singleton.mp new] at at_
      have taken := Network.endpoint_ne_of_isTaken free (tidy.opened index place listens)
      exact absurd at_.symm taken

/-- Draws and other nodes in the registries leave a world tidy. -/
theorem of_nodes (tidy : world.Tidy) (delivering : after.network.fates.AllDelivered)
    (sockets : after.network.sockets = world.network.sockets)
    (same : ∀ index, ∃ count nodes,
      after.member index = { (world.member index).drew count with nodes := nodes }) :
    after.Tidy := by
  refine tidy.of_members delivering fun index => keeps_of_listener (same index) ?_ ?_ <;>
    rw [sockets]
  · exact tidy.opened index
  · exact tidy.owned index

theorem settle (tidy : world.Tidy) (earlier : Network n) :
    ({ world with network := world.network.settle earlier } : World n).Tidy := by
  refine { tidy with opened := ?_, owned := ?_ }
  · intro index endpoint listens
    exact List.mem_filter.mpr ⟨tidy.opened index endpoint listens, rfl⟩
  · intro index endpoint listens socket present
    exact tidy.owned index endpoint listens socket (List.mem_of_mem_filter present)

/-- Closing an endpoint gives up no socket of another member. -/
theorem mem_closing (tidy : world.Tidy) {index other : Fin n} (apart : other ≠ index)
    {endpoint : Endpoint} (listens : (world.member other).listener = some endpoint) :
    ⟨endpoint, .member other, true⟩ ∈ (world.closing index).sockets := by
  have present := tidy.opened other endpoint listens
  simp only [closing]
  split
  next closed own =>
    refine List.mem_filter.mpr ⟨present, bne_iff_ne.mpr fun same => apart ?_⟩
    exact Owner.member.inj (tidy.owned index closed own _ present same)
  next => exact present

theorem mem_of_mem_closing {index : Fin n} {socket : Socket n}
    (present : socket ∈ (world.closing index).sockets) : socket ∈ world.network.sockets := by
  simp only [closing] at present
  split at present
  · exact List.mem_of_mem_filter present
  · exact present

/-- What a member leaves behind is tidy. -/
theorem left (tidy : world.Tidy) (index : Fin n) :
    (({ world with network := world.closing index } : World n).setMember index
      (world.member index).outside).Tidy := by
  have delivering : (world.closing index).fates.AllDelivered := by
    simp only [closing]
    split <;> exact tidy.delivering
  refine tidy.of_members delivering fun other => ?_
  by_cases here : other = index
  · subst here
    refine ⟨⟨0, ?_⟩, ?_, ?_, ?_⟩ <;> rw [member_setMember_self]
    · rfl
    all_goals
      intro _ forgotten
      cases forgotten
  · refine keeps_of_listener ⟨0, _, member_setMember_of_ne _ here _⟩ ?_ ?_
    · exact fun endpoint listens => tidy.mem_closing here listens
    · intro endpoint listens socket present
      exact tidy.owned other endpoint listens socket (mem_of_mem_closing present)

/-- A member that listens anew and is given the identifier it drew leaves a world
tidy. -/
theorem entered (tidy : world.Tidy) {index : Fin n} {address : String} {endpoint : Endpoint}
    {network : Network n} (listened : world.listen index address = .ok (endpoint, network))
    (delivering : after.network.fates.AllDelivered)
    (sockets : after.network.sockets = network.sockets)
    (others : ∀ other ≠ index, ∃ nodes,
      after.member other = { world.member other with nodes := nodes })
    {nodes : List Node} (own : after.member index = ((world.member index).drew 1).entered endpoint
      (world.member index).supply.next.id nodes) : after.Tidy := by
  obtain ⟨free, portsChosen, rfl⟩ := Network.listen_eq_ok listened
  have sockets_eq : after.network.sockets =
      world.network.sockets ++ [⟨endpoint, .member index, true⟩] := sockets
  refine tidy.of_members delivering fun other => ?_
  by_cases here : other = index
  · subst here
    refine ⟨⟨4, by rw [own]; rfl⟩, ?_, ?_, ?_⟩
    · intro id named
      rw [own] at named ⊢
      obtain rfl := Option.some.inj named
      exact .inr (Supply.used_next_ahead _ (show 0 < 4 by decide))
    · intro place listens
      rw [own] at listens
      obtain rfl := Option.some.inj listens
      rw [sockets_eq]
      exact List.mem_append_right _ (List.mem_singleton_self _)
    · intro place listens socket present at_
      rw [own] at listens
      obtain rfl := Option.some.inj listens
      rw [sockets_eq] at present
      rcases List.mem_append.mp present with old | new
      · exact absurd at_ (Network.endpoint_ne_of_isTaken free old)
      · rw [List.mem_singleton.mp new]
  · obtain ⟨listed, same⟩ := others other here
    exact tidy.keeps_of_opened ⟨0, listed, same⟩ free sockets_eq

end Tidy

/-! ## Replicated registries -/

namespace Replicated

variable {world after : World n} {order : List (Fin n)} {entry : Fin n → Node}

theorem settle (replicated : world.Replicated order entry) (earlier : Network n) :
    ({ world with network := world.network.settle earlier } : World n).Replicated order entry where
  agreed := replicated.agreed.of_current (fun _ => Iff.rfl) (fun _ _ => rfl) fun _ _ => rfl
  tidy := replicated.tidy.settle earlier
  listening index inside := by
    obtain ⟨address, listed, reached⟩ := replicated.listening index inside
    exact ⟨address, listed, reached.mono fun _ there => Network.reach_settle there earlier⟩

/-- Draws are no matter for a registry. -/
theorem of_drew (replicated : world.Replicated order entry) (tidy : after.Tidy)
    (reaches : ∀ {address index}, world.Reaches address index → after.Reaches address index)
    (drew : ∀ index, ∃ count, after.member index = (world.member index).drew count) :
    after.Replicated order entry := by
  refine ⟨replicated.agreed.of_current ?_ ?_ ?_, tidy, ?_⟩
  · intro index
    obtain ⟨count, member⟩ := drew index
    rw [Current, member]
    exact Iff.rfl
  · intro index _
    obtain ⟨count, member⟩ := drew index
    rw [member]
    rfl
  · intro index _
    obtain ⟨count, member⟩ := drew index
    rw [member]
    rfl
  · intro index inside
    obtain ⟨address, listed, reached⟩ := replicated.listening index inside
    exact ⟨address, listed, reaches reached⟩

theorem drew (replicated : world.Replicated order entry) (index : Fin n) (count : Nat) :
    (world.setMember index ((world.member index).drew count)).Replicated order entry := by
  refine replicated.of_drew ?_ id (member_setMember_drew world index count)
  refine replicated.tidy.of_nodes replicated.tidy.delivering rfl fun other => ?_
  obtain ⟨taken, member⟩ := member_setMember_drew world index count other
  exact ⟨taken, (world.member other).nodes, member⟩

/-- A member may start to listen. -/
theorem startedListening (replicated : world.Replicated order entry) {index : Fin n}
    {address : String} {endpoint : Endpoint} {network : Network n}
    (listened : world.listen index address = .ok (endpoint, network)) :
    (world.listening index network).Replicated order entry := by
  obtain ⟨free, portsChosen, rfl⟩ := Network.listen_eq_ok listened
  let opened : World n := { world with
    network := { world.network.opened endpoint (.member index) with portsChosen := portsChosen } }
  have drawn := member_setMember_drew opened index 1
  have reaches {address : String} {other : Fin n} (reached : world.Reaches address other) :
      opened.Reaches address other :=
    reached.mono fun _ there => Network.reach_opened there endpoint _
  refine replicated.of_drew ?_ reaches drawn
  refine replicated.tidy.of_members replicated.tidy.delivering fun other => ?_
  obtain ⟨taken, member⟩ := drawn other
  exact replicated.tidy.keeps_of_opened ⟨taken, _, member⟩ free rfl

/-- The fates that exchanges have met are no matter for a registry. -/
theorem advanced (replicated : world.Replicated order entry) :
    ({ world with network := world.network.advanceFate } : World n).Replicated order entry :=
  replicated.of_drew { replicated.tidy with delivering := replicated.tidy.delivering } id
    fun _ => ⟨0, rfl⟩

/-- A member that has started to listen may stop again. -/
theorem stoppedListening (replicated : world.Replicated order entry) {index : Fin n}
    {address : String} {endpoint : Endpoint} {network : Network n}
    (listened : world.listen index address = .ok (endpoint, network)) :
    ({ world.listening index network with network := network.shut endpoint } :
      World n).Replicated order entry := by
  obtain ⟨free, portsChosen, rfl⟩ := Network.listen_eq_ok listened
  let stopped : Network n := Network.shut
    { world.network.opened endpoint (.member index) with portsChosen := portsChosen } endpoint
  have openSockets : stopped.openSockets = world.network.openSockets := by
    have opened := Network.openSockets_opened world.network endpoint (.member index)
    rw [Network.openSockets_shut]
    exact (congrArg _ opened).trans (Network.openSockets_shut_opened _ free)
  have drawn (other : Fin n) : ∃ count,
      (world.setMember index ((world.member index).drew 1)).member other =
        (world.member other).drew count := member_setMember_drew world index 1 other
  refine replicated.of_drew ?_ (fun reached => reached.mono fun _ there => ?_) drawn
  · refine replicated.tidy.of_members replicated.tidy.delivering fun other => ?_
    obtain ⟨taken, member⟩ := drawn other
    refine Tidy.keeps_of_listener ⟨taken, _, member⟩ ?_ ?_
    · intro place listens
      have before : ⟨place, .member other, true⟩ ∈ world.network.openSockets :=
        List.mem_filter.mpr ⟨replicated.tidy.opened other place listens, rfl⟩
      rw [← openSockets] at before
      exact List.mem_of_mem_filter before
    · intro place listens socket present same
      obtain ⟨earlier, known, here, owner⟩ := Network.exists_of_mem_shut present
      rw [← owner]
      rcases List.mem_append.mp known with old | new
      · exact replicated.tidy.owned other place listens earlier old (here.trans same)
      · have present := replicated.tidy.opened other place listens
        rw [List.mem_singleton.mp new] at here
        exact absurd (here.trans same).symm (Network.endpoint_ne_of_isTaken free present)
  · have system : stopped.system = world.network.system := rfl
    exact (Network.reach_eq_of_openSockets system openSockets _).trans there

/-- An operation that all current members apply, and that adds no entry and keeps the
members of the others, keeps the registry replicated. -/
theorem applied (replicated : world.Replicated order entry) {operation : NodeOperation}
    (applied : Applied operation order world after) {order' : List (Fin n)} {entry' : Fin n → Node}
    (result : operation.apply (order.map entry) = order'.map entry') (nodup : order'.Nodup)
    (subset : ∀ index ∈ order', index ∈ order)
    (same : ∀ index ∈ order, (entry' index).SameMember (entry index)) :
    after.Replicated order' entry' where
  agreed := replicated.agreed.applied replicated.tidy applied result nodup subset
    fun index inside => (same index inside).id_eq
  tidy := by
    obtain ⟨met, network⟩ := applied.network_eq
    refine replicated.tidy.of_nodes (applied.allDelivered replicated.tidy.delivering)
      (by rw [network]) fun index => ?_
    by_cases inside : index ∈ order
    · exact ⟨0, _, applied.applied index inside⟩
    · exact ⟨0, _, applied.spared index inside⟩
  listening index inside := by
    obtain ⟨address, listed, reached⟩ := replicated.listening index (subset index inside)
    refine ⟨address, ?_, (reaches_congr (applied.reach_eq address) index).mpr reached⟩
    rw [(same index (subset index inside)).peerAddress?_eq]
    exact listed

/-- A member that is not current may leave. -/
theorem left (replicated : world.Replicated order entry) {index : Fin n} (outside : index ∉ order) :
    (({ world with network := world.closing index } : World n).setMember index
      (world.member index).outside).Replicated order entry := by
  have apart : ∀ other ∈ order, other ≠ index := by
    rintro other inside rfl
    exact outside inside
  refine ⟨replicated.agreed.of_current ?_ ?_ ?_, replicated.tidy.left index, ?_⟩
  · intro other
    by_cases here : other = index
    · rw [here]
      constructor
      · rintro ⟨swarm, _⟩
        rw [member_setMember_self] at swarm
        cases swarm
      · intro current
        exact absurd ((replicated.agreed.current_iff index).mp current) outside
    · rw [Current, member_setMember_of_ne _ here]
      exact Iff.rfl
  · intro other inside
    rw [member_setMember_of_ne _ (apart other inside)]
    rfl
  · intro other inside
    rw [member_setMember_of_ne _ (apart other inside)]
    rfl
  · intro other inside
    obtain ⟨address, listed, reached⟩ := replicated.listening other inside
    obtain ⟨target, there, takes⟩ := reached.exists_target
    refine ⟨address, listed, World.Reaches.of_reach ?_ takes⟩
    simp only [network_setMember, closing]
    split
    next endpoint own =>
      refine Network.reach_release there fun socket present same owner => ?_
      rw [replicated.tidy.owned index endpoint own socket present same] at owner
      exact apart other inside (Owner.member.inj owner).symm
    next => exact there

/-- A member may enter with an entry that all current members added, under an address
that reaches it once the network has settled. -/
theorem entered (replicated : world.Replicated order entry) {index : Fin n}
    (outside : index ∉ order)
    {address : String} {endpoint : Endpoint} {network : Network n}
    (listened : world.listen index address = .ok (endpoint, network)) {node : Node}
    (drawn : node.id = (world.member index).supply.next.id)
    (applied : Applied (.add node) order (world.listening index network) after)
    (earlier : Network n) {advertised : String} (listed : node.peerAddress? = some advertised)
    (reaches : World.Reaches { after with network := after.network.settle earlier }
      advertised index) :
    ({ after.setMember index ((after.member index).entered endpoint node.id
          (order.map entry ++ [node])) with
        network := after.network.settle earlier } : World n).Replicated
      (order ++ [index]) (Function.update entry index node) := by
  have started := replicated.startedListening listened
  have own : after.member index = (world.member index).drew 1 := by
    rw [applied.spared index outside]
    exact member_setMember_self _ _ _
  have agreed := started.agreed.entered outside applied endpoint
  have tidy : (after.setMember index ((after.member index).entered endpoint node.id
      (order.map entry ++ [node]))).Tidy := by
    obtain ⟨met, same⟩ := applied.network_eq
    have sockets : after.network.sockets = network.sockets := by
      rw [same]
      rfl
    have entered : (after.setMember index ((after.member index).entered endpoint node.id
        (order.map entry ++ [node]))).member index = ((world.member index).drew 1).entered endpoint
          (world.member index).supply.next.id (order.map entry ++ [node]) := by
      rw [member_setMember_self, own, drawn]
    refine replicated.tidy.entered listened (applied.allDelivered started.tidy.delivering) sockets
      (fun other different => ?_) entered
    rw [member_setMember_of_ne _ different]
    have before : (world.listening index network).member other = world.member other :=
      member_setMember_of_ne _ different _
    by_cases inside : other ∈ order
    · exact ⟨_, by rw [applied.applied other inside, before]⟩
    · exact ⟨(world.member other).nodes, by rw [applied.spared other inside, before]⟩
  refine ⟨agreed.of_current (fun _ => Iff.rfl) (fun _ _ => rfl) fun _ _ => rfl,
    tidy.settle earlier, ?_⟩
  intro other inside
  by_cases here : other = index
  · rw [here, Function.update_self]
    exact ⟨advertised, listed, reaches⟩
  · obtain ⟨there, known, reached⟩ := started.listening other (mem_of_mem_append inside here)
    have still := (reaches_congr (applied.reach_eq there) other).mpr reached
    rw [Function.update_of_ne here]
    exact ⟨there, known, still.mono fun _ found => Network.reach_settle found earlier⟩

end Replicated

end World

end SwarmManager
