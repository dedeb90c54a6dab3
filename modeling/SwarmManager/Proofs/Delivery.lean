import SwarmManager.Proofs.ComingBack

/-!
# What arrives if everything is delivered

On a network that delivers every exchange, to addresses that reach members, sending
cannot fail, and what it does is that the members concerned apply the operation
(`Applied`).  An announcement has every listed member apply it, but the one that
announces (`run_announce`), and an operation that is sent to be passed on is applied
by all that the receiver lists and by the receiver (`run_send`).

The addresses of members keep reaching them whatever others do to the sockets
(`Network.reach_opened`, `Network.reach_release`, `Network.reach_settle`).
-/

namespace SwarmManager

set_option autoImplicit false

variable {n : Nat}

/-! ## Addresses that keep reaching a member -/

namespace Network

variable {network other : Network n} {address : String} {owner : Owner n} {target : Http.Target}

/-- An address reaches the owner of the first open socket that takes the endpoint to which
it leads. -/
theorem reach_eq_some :
    network.reach address = some (owner, target) ↔
      ∃ endpoint socket, network.locate address = some (endpoint, target) ∧
        (network.sockets.find? fun socket =>
          socket.isOpen && socket.endpoint.takes endpoint) = some socket ∧
        socket.owner = owner := by
  simp only [reach, Option.bind_eq_bind, Option.bind_eq_some_iff, Option.pure_def,
    Option.some.injEq, Prod.exists, Prod.mk.injEq]
  constructor
  · rintro ⟨endpoint, _, located, socket, found, owned, rfl⟩
    exact ⟨endpoint, socket, located, found, owned⟩
  · rintro ⟨endpoint, socket, located, found, owned⟩
    exact ⟨endpoint, target, located, socket, found, owned, rfl⟩

/-- Whom an address reaches is up to the system and the sockets. -/
theorem reach_congr (system : other.system = network.system)
    (sockets : other.sockets = network.sockets) (address : String) :
    other.reach address = network.reach address := by
  simp only [reach, locate, system, sockets]

/-- Of a list without some items, the first that fits is still the first if it is left. -/
theorem find?_filter_of_left {α : Type} {items : List α} {fits left : α → Bool} {first : α}
    (found : items.find? fits = some first) (isLeft : left first = true) :
    (items.filter left).find? fits = some first := by
  obtain ⟨suits, front, back, rfl, before⟩ := List.find?_eq_some_iff_append.mp found
  rw [List.filter_append, List.filter_cons_of_pos isLeft]
  refine List.find?_eq_some_iff_append.mpr ⟨suits, _, _, rfl, fun item present => ?_⟩
  exact before item (List.mem_of_mem_filter present)

theorem reach_opened (reached : network.reach address = some (owner, target)) (endpoint : Endpoint)
    (other : Owner n) : (network.opened endpoint other).reach address = some (owner, target) := by
  obtain ⟨there, socket, located, found, owned⟩ := reach_eq_some.mp reached
  refine reach_eq_some.mpr ⟨there, socket, located, ?_, owned⟩
  rw [opened, List.find?_append, found]
  rfl

/-- Releasing the endpoint of others does not change whom an address reaches. -/
theorem reach_release (reached : network.reach address = some (owner, target)) {endpoint : Endpoint}
    (others : ∀ socket ∈ network.sockets, socket.endpoint = endpoint → socket.owner ≠ owner) :
    (network.release endpoint).reach address = some (owner, target) := by
  obtain ⟨there, socket, located, found, rfl⟩ := reach_eq_some.mp reached
  refine reach_eq_some.mpr ⟨there, socket, located, find?_filter_of_left found ?_, rfl⟩
  have apart : socket.endpoint ≠ endpoint := fun same =>
    others socket (List.mem_of_find?_eq_some found) same rfl
  simpa using apart

/-- An open socket is not given up when the network settles. -/
theorem reach_settle (reached : network.reach address = some (owner, target))
    (earlier : Network n) :
    (network.settle earlier).reach address = some (owner, target) := by
  obtain ⟨there, socket, located, found, owned⟩ := reach_eq_some.mp reached
  refine reach_eq_some.mpr ⟨there, socket, located, find?_filter_of_left found ?_, owned⟩
  have suits := List.find?_some found
  simp only [Bool.and_eq_true] at suits
  rw [suits.1, Bool.true_or]

end Network

/-- Every exchange is delivered. -/
def Fates.AllDelivered (fates : Fates) : Prop := ∀ met, fates.source met = .delivered

namespace World

/-! ## Members that applied an operation -/

/-- Some members applied an operation and exchanges met their fates, and nothing else
happened. -/
structure Applied (operation : NodeOperation) (targets : List (Fin n)) (before after : World n) :
    Prop where
  applied : ∀ index ∈ targets, after.member index =
    { before.member index with nodes := operation.apply (before.member index).nodes }
  spared : ∀ index ∉ targets, after.member index = before.member index
  network_eq : ∃ met, after.network =
    { before.network with fates := { before.network.fates with met := met } }

namespace Applied

variable {operation : NodeOperation} {first second : List (Fin n)} {before middle after : World n}

theorem none (world : World n) : Applied operation [] world world where
  applied _ absent := absurd absent List.not_mem_nil
  spared _ _ := rfl
  network_eq := ⟨world.network.fates.met, rfl⟩

/-- Which members applied an operation is all that counts, not their order. -/
theorem congr (applied : Applied operation first before after)
    (same : ∀ index, index ∈ first ↔ index ∈ second) : Applied operation second before after where
  applied index inside := applied.applied index ((same index).mpr inside)
  spared index outside := applied.spared index fun inside => outside ((same index).mp inside)
  network_eq := applied.network_eq

/-- Different members may apply an operation one after the other. -/
theorem append (early : Applied operation first before middle)
    (late : Applied operation second middle after) (disjoint : ∀ index ∈ first, index ∉ second) :
    Applied operation (first ++ second) before after where
  applied index inside := by
    rcases List.mem_append.mp inside with early' | late'
    · rw [late.spared index (disjoint index early'), early.applied index early']
    · have later : index ∉ first := fun sooner => disjoint index sooner late'
      rw [late.applied index late', early.spared index later]
  spared index outside := by
    rw [List.mem_append, not_or] at outside
    rw [late.spared index outside.2, early.spared index outside.1]
  network_eq := by
    obtain ⟨met, one⟩ := early.network_eq
    obtain ⟨later, two⟩ := late.network_eq
    exact ⟨later, by rw [two, one]⟩

theorem reach_eq (applied : Applied operation first before after) (address : String) :
    after.network.reach address = before.network.reach address := by
  obtain ⟨met, same⟩ := applied.network_eq
  rw [same]
  rfl

theorem allDelivered (applied : Applied operation first before after)
    (delivered : before.network.fates.AllDelivered) : after.network.fates.AllDelivered := by
  obtain ⟨met, same⟩ := applied.network_eq
  rw [same]
  exact delivered

/-- A member that receives an operation applies it. -/
theorem receive (world : World n) (operation : NodeOperation) (index : Fin n) :
    Applied operation [index] world (world.setMember index
      { world.member index with nodes := operation.apply (world.member index).nodes }) where
  applied other here := by
    rw [List.mem_singleton.mp here, member_setMember_self]
  spared other elsewhere :=
    member_setMember_of_ne world (fun same => elsewhere (List.mem_singleton.mpr same)) _
  network_eq := ⟨world.network.fates.met, rfl⟩

/-- An exchange meets its fate before anything else happens. -/
theorem met (applied : Applied operation first
    { before with network := before.network.advanceFate } after) :
    Applied operation first before after where
  applied := applied.applied
  spared := applied.spared
  network_eq := by
    obtain ⟨met, same⟩ := applied.network_eq
    exact ⟨met, same⟩

end Applied

/-! ## Sending -/

variable {waiting : Option (Fin n)} {operation : NodeOperation} {world : World n}

/-- An address reaches a member at a target where operations are taken. -/
def Reaches (world : World n) (address : String) (index : Fin n) : Prop :=
  ∃ reached ∈ world.network.reach address,
    reached.1 = .member index ∧ reached.2.takesOperations = true

instance (world : World n) (address : String) (index : Fin n) :
    Decidable (world.Reaches address index) :=
  inferInstanceAs (Decidable (∃ reached ∈ world.network.reach address, _ ∧ _))

namespace Reaches

variable {other : World n} {address : String} {index second : Fin n}

theorem exists_target (reaches : world.Reaches address index) :
    ∃ target, world.network.reach address = some (.member index, target) ∧
      target.takesOperations = true := by
  obtain ⟨⟨_, target⟩, reached, rfl, takes⟩ := reaches
  exact ⟨target, reached, takes⟩

theorem of_reach {target : Http.Target}
    (reached : world.network.reach address = some (.member index, target))
    (takes : target.takesOperations = true) : world.Reaches address index :=
  ⟨_, reached, rfl, takes⟩

/-- An address that reaches a member reaches no other. -/
theorem unique (one : world.Reaches address index) (two : world.Reaches address second) :
    second = index := by
  obtain ⟨_, reached, _⟩ := one.exists_target
  obtain ⟨_, again, _⟩ := two.exists_target
  cases reached.symm.trans again
  rfl

/-- An address reaches a member as long as it reaches whom it reached. -/
theorem mono (reaches : world.Reaches address index)
    (keeps : ∀ reached, world.network.reach address = some reached →
      other.network.reach address = some reached) : other.Reaches address index := by
  obtain ⟨reached, found, rest⟩ := reaches
  exact ⟨reached, keeps reached found, rest⟩

end Reaches

theorem reaches_congr {one other : World n} {address : String}
    (same : other.network.reach address = one.network.reach address) (index : Fin n) :
    other.Reaches address index ↔ one.Reaches address index := by
  rw [Reaches, Reaches, same]

/-- A delivery that is short enough is served by the member that its address reaches, unless
that member waits. -/
theorem run_contact {serve : Serve n} {delivery : Delivery} {peer : String} {index : Fin n}
    (short : operation.isTooLong = false) (reaches : world.Reaches peer index)
    (free : waiting ≠ some index) :
    (contact waiting serve peer delivery operation).run.run world =
      (relay peer (serve index delivery)).run.run world := by
  obtain ⟨target, reached, takes⟩ := reaches.exists_target
  have accepted := Http.PeerEndpoint.accept_asking_eq_ok.mpr
    ⟨takes, short, (rfl : delivery = delivery)⟩
  simp only [contact, run_bind, run_get, reached, accepted, if_neg free]

/-- So it is in an exchange that is delivered. -/
theorem run_exchange {serve : Serve n} {delivery : Delivery} {peer : String}
    {index : Fin n} {nodes : List Node} {after : World n}
    (fate : world.network.fates.next = .delivered) (short : operation.isTooLong = false)
    (reaches : world.Reaches peer index) (free : waiting ≠ some index)
    (served : (serve index delivery).run.run
      { world with network := world.network.advanceFate } = (.ok nodes, after)) :
    (exchange waiting serve peer delivery operation).run.run world = (.ok nodes, after) := by
  have there : World.Reaches { world with network := world.network.advanceFate } peer index :=
    reaches
  simp only [exchange, run_bind, run_meetFate, fate, run_contact short there free, relay,
    run_tryCatch, served]

/-- A delivery that is too long is refused by the member that its address reaches. -/
theorem run_exchange_tooLong {serve : Serve n} {delivery : Delivery} {peer : String}
    {index : Fin n} (fate : world.network.fates.next = .delivered)
    (long : operation.isTooLong = true) (reaches : world.Reaches peer index) :
    (exchange waiting serve peer delivery operation).run.run world =
      (.error (.failed (.unexpectedPeerResponse peer 413)),
        { world with network := world.network.advanceFate }) := by
  obtain ⟨target, reached, takes⟩ := reaches.exists_target
  have there : world.network.advanceFate.reach peer = some (.member index, target) := reached
  have refused : Http.PeerEndpoint.accept "POST" (target.asking delivery) true =
      .error .tooLong := Http.PeerEndpoint.accept_tooLong takes
  simp only [exchange, run_bind, run_meetFate, fate, contact, run_get, there, long, refused]
  rfl

theorem run_sendTerminal {operation : NodeOperation} (short : operation.isTooLong = false)
    {peer : String} {index : Fin n}
    (delivered : world.network.fates.AllDelivered) (reaches : world.Reaches peer index)
    (free : waiting ≠ some index) :
    ∃ nodes after, (sendTerminal waiting peer operation).run.run world = (.ok nodes, after) ∧
      Applied operation [index] world after :=
  ⟨_, _, run_exchange (delivered _) short reaches free (run_receive _ index operation),
    (Applied.receive _ operation index).met⟩

/-- The first peer refuses what is too long, and no other is called. -/
theorem run_announce_tooLong {operation : NodeOperation} (long : operation.isTooLong = true)
    {selfId : Option String} {order : List (Fin n)} {entry : Fin n → Node}
    (delivered : world.network.fates.AllDelivered)
    (reached : ∀ index ∈ order,
      ∃ address, (entry index).peerAddress? = some address ∧ world.Reaches address index)
    (others : ∃ index ∈ order, selfId ≠ some (entry index).id) :
    ∃ peer, (announce waiting operation selfId (order.map entry)).run.run world =
      (.error (.failed (.unexpectedPeerResponse peer 413)),
        { world with network := world.network.advanceFate }) := by
  induction order with
  | nil =>
    obtain ⟨_, absent, _⟩ := others
    exact absurd absent List.not_mem_nil
  | cons index rest ih =>
    rw [List.map_cons, announce]
    by_cases other : selfId ≠ some (entry index).id
    · obtain ⟨address, listed, reaches⟩ := reached index List.mem_cons_self
      have refused : (sendTerminal waiting address operation).run.run world =
          (.error (.failed (.unexpectedPeerResponse address 413)),
            { world with network := world.network.advanceFate }) :=
        run_exchange_tooLong (delivered _) long reaches
      refine ⟨address, ?_⟩
      simp only [if_pos other, listed, run_bind, refused]
    · rw [if_neg other]
      refine ih (fun target inside => reached target (List.mem_cons_of_mem _ inside)) ?_
      obtain ⟨target, present, different⟩ := others
      rcases List.mem_cons.mp present with rfl | later
      · exact absurd different other
      · exact ⟨target, later, different⟩

/-- An announcement has all listed members apply the operation but the one of the given
identifier, if it is short enough for them. -/
theorem run_announce {operation : NodeOperation}
    {selfId : Option String} {order : List (Fin n)} {entry : Fin n → Node}
    (delivered : world.network.fates.AllDelivered) (nodup : order.Nodup)
    (short : ∀ index ∈ order, selfId ≠ some (entry index).id → operation.isTooLong = false)
    (reached : ∀ index ∈ order, selfId ≠ some (entry index).id → waiting ≠ some index ∧
      ∃ address, (entry index).peerAddress? = some address ∧ world.Reaches address index) :
    ∃ after, (announce waiting operation selfId (order.map entry)).run.run world = (.ok ⟨⟩, after) ∧
      Applied operation (order.filter fun index => selfId ≠ some (entry index).id) world after := by
  induction order generalizing world with
  | nil => exact ⟨world, rfl, .none world⟩
  | cons index rest ih =>
    obtain ⟨apart, restNodup⟩ := List.nodup_cons.mp nodup
    rw [List.map_cons, announce]
    by_cases other : selfId ≠ some (entry index).id
    · obtain ⟨free, address, listed, reaches⟩ := reached index List.mem_cons_self other
      obtain ⟨nodes, next, sent, first⟩ :=
        run_sendTerminal (short index List.mem_cons_self other) delivered reaches free
      have later : ∀ target ∈ rest, selfId ≠ some (entry target).id → waiting ≠ some target ∧
          ∃ address, (entry target).peerAddress? = some address ∧ next.Reaches address target := by
        intro target inside different
        obtain ⟨freeTarget, there, known, reachesTarget⟩ :=
          reached target (List.mem_cons_of_mem _ inside) different
        exact ⟨freeTarget, there, known,
          (reaches_congr (first.reach_eq there) target).mpr reachesTarget⟩
      obtain ⟨after, announced, remaining⟩ := ih (first.allDelivered delivered) restNodup
        (fun target inside => short target (List.mem_cons_of_mem _ inside)) later
      refine ⟨after, ?_, ?_⟩
      · simp only [if_pos other, listed, run_bind, sent, announced]
      · rw [List.filter_cons_of_pos (by simpa using other)]
        -- The first node is listed once, so the rest leaves alone what its member applied.
        refine first.append remaining fun target here inside => apart ?_
        rw [List.mem_singleton.mp here] at inside
        exact List.mem_of_mem_filter inside
    · rw [if_neg other, List.filter_cons_of_neg (by simpa using other)]
      exact ih delivered restNodup
        (fun target inside => short target (List.mem_cons_of_mem _ inside))
        fun target inside => reached target (List.mem_cons_of_mem _ inside)

end World

end SwarmManager
