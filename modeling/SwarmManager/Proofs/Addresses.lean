import SwarmManager.Proofs.RegistrySteps

/-!
# Addresses as they are asked for

A member is asked to listen on one address and to advertise another, both free texts, and what is
missing in them is configured or chosen.  `Address.HasHost` and `Address.HasPort` say what a text
names: the last colon tells the host from the port, so that a host may hold colons, and an address
written from a host and a port is read back as these (`splitHostPort_join`).

What is asked for is heeded when a member opens its endpoint and describes itself (`Opens.heeded`):
the endpoint is one that the system has for the configured host and that it binds, and the node
that describes it is the one that is registered: by the member itself when it starts a swarm, by
the peer that answers when it joins one (`TakenLast`).

The main statement is `World.addresses_as_asked`.
-/

namespace SwarmManager

set_option autoImplicit false

variable {n : Nat}

/-! ## Hosts and ports in texts -/

namespace Address

/-- Whether a text is a port other than zero: digits, maybe after a plus sign. -/
def IsPort (text : String) (port : UInt16) : Prop :=
  port ≠ 0 ∧ ∃ numeral, (text.toList = numeral ∨ text.toList = '+' :: numeral) ∧
    numeral ≠ [] ∧ (∀ character ∈ numeral, Decimal.isDigit character = true) ∧
    Decimal.value numeral = port.toNat

/-- Whether an address has a host: the part before its last colon, or all of it if it has none. -/
def HasHost (address host : String) : Prop :=
  (∃ behind, address = host ++ ":" ++ behind ∧ ':' ∉ behind.toList) ∨
    ':' ∉ address.toList ∧ host = address

/-- Whether an address has a port behind its last colon. -/
def HasPort (address : String) (port : UInt16) : Prop :=
  ∃ before behind, address = before ++ ":" ++ behind ∧ ':' ∉ behind.toList ∧ IsPort behind port

theorem HasPort.port_ne_zero {address : String} {port : UInt16} (given : HasPort address port) :
    port ≠ 0 := by
  obtain ⟨_, _, _, _, number⟩ := given
  exact number.1

/-- What is read is the number of the digits, after a plus sign if there is one. -/
theorem anyPort?_eq_some {text : String} {port : UInt16} :
    anyPort? text = some port ↔
      ∃ numeral, (text.toList = numeral ∨ text.toList = '+' :: numeral) ∧
        Decimal.read? numeral = some port.toNat := by
  have sized (number : Nat) :
      (if number < 65536 then some (UInt16.ofNat number) else none) = some port ↔
        number = port.toNat := by
    constructor
    · intro read
      split at read
      next small => rw [← Option.some.inj read, UInt16.toNat_ofNat_of_lt' small]
      next => cases read
    · rintro rfl
      rw [if_pos port.toNat_lt, UInt16.ofNat_toNat]
  unfold anyPort?
  extract_lets numeral
  refine Iff.trans (b := Decimal.read? numeral = some port.toNat) ?_ ?_
  · cases Decimal.read? numeral with
    | none => simp
    | some number => exact (sized number).trans Option.some_inj.symm
  subst numeral
  split
  next rest signed =>
    constructor
    · exact fun digits => ⟨rest, .inr signed, digits⟩
    · rintro ⟨numeral, same | same, digits⟩
      · have allDigits := (Decimal.read?_eq_some.mp digits).2.1
        rw [← same, signed] at allDigits
        exact absurd (allDigits '+' List.mem_cons_self) (by decide)
      · rw [signed] at same
        rwa [(List.cons.inj same).2]
  next unsigned =>
    constructor
    · exact fun digits => ⟨text.toList, .inl rfl, digits⟩
    · rintro ⟨numeral, same | same, digits⟩
      · rwa [same]
      · exact absurd same (unsigned numeral)

theorem port?_eq_some {text : String} {port : UInt16} :
    port? text = some port ↔ IsPort text port := by
  simp only [port?, Option.filter_eq_some_iff, anyPort?_eq_some, Decimal.read?_eq_some, IsPort,
    bne_iff_ne]
  exact and_comm

/-- What stands before the last colon of an address and behind it. -/
theorem splitAtLast_eq_some {address before behind : String} :
    Text.splitAtLast ':' address = some (before, behind) ↔
      address = before ++ ":" ++ behind ∧ ':' ∉ behind.toList := by
  rw [Text.splitAtLast_eq_some, ← String.toList_inj, String.toList_append, String.toList_append,
    List.append_assoc]
  rfl

theorem hasHost_iff {address host : String} :
    HasHost address host ↔ (splitHostPort address).1 = host := by
  rw [splitHostPort]
  cases cut : Text.splitAtLast ':' address with
  | none =>
    refine ⟨?_, fun same => .inr ⟨Text.splitAtLast_eq_none.mp cut, same.symm⟩⟩
    rintro (⟨behind, parts⟩ | ⟨_, rfl⟩)
    · cases cut.symm.trans (splitAtLast_eq_some.mpr parts)
    · rfl
  | some parts =>
    obtain ⟨before, behind⟩ := parts
    constructor
    · rintro (⟨other, parts⟩ | ⟨absent, _⟩)
      · cases cut.symm.trans (splitAtLast_eq_some.mpr parts)
        rfl
      · cases cut.symm.trans (Text.splitAtLast_eq_none.mpr absent)
    · rintro rfl
      exact .inl ⟨behind, splitAtLast_eq_some.mp cut⟩

theorem hasPort_iff {address : String} {port : UInt16} :
    HasPort address port ↔ (splitHostPort address).2 = some port := by
  simp only [HasPort, ← and_assoc, ← splitAtLast_eq_some, ← port?_eq_some, splitHostPort]
  cases Text.splitAtLast ':' address with
  | none => simp
  | some parts => simp [Prod.ext_iff]

/-- What is missing in an address is found elsewhere. -/
theorem hasPort_or {address : String} {port : UInt16} {otherwise : Prop}
    (found : (splitHostPort address).2 = some port ∨
      (splitHostPort address).2 = none ∧ otherwise) :
    HasPort address port ∨ (∀ given, ¬ HasPort address given) ∧ otherwise := by
  refine found.imp hasPort_iff.mpr (And.imp_left fun none given hasPort => ?_)
  cases none.symm.trans (hasPort_iff.mp hasPort)

/-- A port is written as a port. -/
theorem isPort_text {port : UInt16} (given : port ≠ 0) : IsPort (Decimal.text port.toNat) port :=
  ⟨given, Decimal.digits port.toNat, .inl (String.toList_ofList),
    Decimal.digits_ne_nil _, List.all_eq_true.mp (Decimal.all_isDigit_digits _),
    Decimal.value_digits _⟩

/-- An address that is written from a host and a port says that host and that port. -/
theorem splitHostPort_join (host : String) {port : UInt16} (given : port ≠ 0) :
    splitHostPort (join host port) = (host, some port) := by
  have colonless : ':' ∉ (Decimal.text port.toNat).toList := by
    rw [Decimal.text, String.toList_ofList]
    exact Decimal.notMem_digits rfl _
  have hasHost : HasHost (join host port) host := .inl ⟨_, rfl, colonless⟩
  have hasPort : HasPort (join host port) port := ⟨host, _, rfl, colonless, isPort_text given⟩
  exact Prod.ext (hasHost_iff.mp hasHost) (hasPort_iff.mp hasPort)

end Address

/-! ## Listening and being reached -/

namespace Network

variable {network after : Network n} {endpoint : Endpoint} {owner : Owner n}

/-- Listening opens an endpoint at an address of the host, at the port that is asked for or, if
there is none, at one the system chooses. -/
theorem listen_endpoint {host : String} {port : Option UInt16} (nonzero : port ≠ some 0)
    (listened : network.listen host port owner = .ok (endpoint, after)) :
    endpoint.host ∈ network.system.addresses host ∧
      (port = some endpoint.port ∨ port = none ∧ endpoint.port ≠ 0) := by
  simp only [listen] at listened
  split at listened
  next => cases listened
  next opened portsChosen bound =>
    obtain ⟨rfl, _⟩ := Prod.mk.inj (Except.ok.inj listened)
    obtain ⟨onHost, _, asked, chosen⟩ := System.listen_eq_some bound
    refine ⟨onHost, ?_⟩
    cases port with
    | none => exact .inr ⟨rfl, chosen rfl⟩
    | some port =>
      have given : port ≠ 0 := fun zero => nonzero (congrArg some zero)
      exact .inl (congrArg some (asked given)).symm

end Network

/-! ## What is asked for -/

/-- An endpoint and the host and port of an address are those that a member of some settings is
asked to listen on and to advertise, on a system. -/
structure Settings.Heeded (settings : Settings) (system : System) (listen advertise : String)
    (endpoint : Endpoint) (host : String) (port : UInt16) : Prop where
  onPeerHost : endpoint.host ∈ system.addresses settings.peerHost
  listens : Address.HasPort listen endpoint.port ∨
    (∀ given, ¬ Address.HasPort listen given) ∧ endpoint.port ≠ 0
  host_eq : ∃ given, Address.HasHost advertise given ∧
    host = if given = "" then settings.advertiseHost else given
  port_eq : Address.HasPort advertise port ∨
    (∀ given, ¬ Address.HasPort advertise given) ∧ port = endpoint.port

/-- A node bears a host and a port, and its address says them again. -/
structure Node.Bears (node : Node) (host : String) (port : UInt16) : Prop where
  statusAddress : node.status.address = host
  peerAddress : node.peerAddress? = some (host ++ ":" ++ Decimal.text port.toNat)
  splits : Address.splitHostPort (host ++ ":" ++ Decimal.text port.toNat) = (host, some port)

theorem Settings.Heeded.port_ne_zero {settings : Settings} {system : System}
    {listen advertise host : String} {endpoint : Endpoint} {port : UInt16}
    (heeded : settings.Heeded system listen advertise endpoint host port) : port ≠ 0 := by
  obtain given | ⟨_, rfl⟩ := heeded.port_eq
  · exact given.port_ne_zero
  · obtain given | ⟨_, chosen⟩ := heeded.listens
    · exact given.port_ne_zero
    · exact chosen

/-- What a member advertises is computed from the address it is asked to advertise. -/
theorem Settings.Heeded.advertised {settings : Settings} {system : System}
    {listen advertise host : String} {endpoint : Endpoint} {port : UInt16}
    (heeded : settings.Heeded system listen advertise endpoint host port) :
    host = (if (Address.splitHostPort advertise).1 = "" then settings.advertiseHost
      else (Address.splitHostPort advertise).1) ∧
      port = (Address.splitHostPort advertise).2.getD endpoint.port := by
  obtain ⟨given, hasHost, host_eq⟩ := heeded.host_eq
  rw [Address.hasHost_iff.mp hasHost]
  refine ⟨host_eq, ?_⟩
  obtain hasPort | ⟨missing, rfl⟩ := heeded.port_eq
  · rw [Address.hasPort_iff.mp hasPort, Option.getD_some]
  · cases named : (Address.splitHostPort advertise).2 with
    | none => rfl
    | some given => exact absurd (Address.hasPort_iff.mpr named) (missing given)

namespace World

/-- A member that opens an endpoint and describes itself heeds what it is asked for. -/
theorem Opens.heeded {before opened : World n} {index : Fin n} {listen advertise : String}
    {isLeader : Bool} {endpoint : Endpoint} {node : Node}
    (opens : Opens before index listen advertise isLeader endpoint node opened) :
    ∃ host port, (before.member index).settings.Heeded before.network.system listen advertise
        endpoint host port ∧ node.Bears host port := by
  obtain ⟨network, listened, _⟩ := opens.listened
  have nonzero : (Address.splitHostPort listen).2 ≠ some 0 := fun zero =>
    (Address.hasPort_iff.mpr zero).port_ne_zero rfl
  obtain ⟨onPeerHost, listens⟩ := Network.listen_endpoint nonzero listened
  let settings := (before.member index).settings
  let given := (Address.splitHostPort advertise).1
  let host := if given.isEmpty then settings.advertiseHost else given
  let port := (Address.splitHostPort advertise).2.getD endpoint.port
  have host_eq : host = if given = "" then settings.advertiseHost else given := by
    simp only [host, String.isEmpty_iff]
  have heeded : settings.Heeded before.network.system listen advertise endpoint host port := by
    refine ⟨onPeerHost, Address.hasPort_or listens, ⟨given, Address.hasHost_iff.mpr rfl, host_eq⟩,
      Address.hasPort_or ?_⟩
    cases named : (Address.splitHostPort advertise).2 <;> simp [port, named]
  obtain rfl := opens.node_eq
  exact ⟨host, port, heeded, rfl, rfl, Address.splitHostPort_join host heeded.port_ne_zero⟩

/-! ## What is registered -/

/-- A member is in a swarm under an identifier and listens on an endpoint. -/
structure EnteredOn (world : World n) (index : Fin n) (endpoint : Endpoint) (id : String) :
    Prop where
  nodeId_eq : (world.member index).nodeId = some id
  listener_eq : (world.member index).listener = some endpoint
  isOpen : ⟨endpoint, .member index, true⟩ ∈ world.network.openSockets

/-- The peer at an address registered a node for a member: another member lists it last, and so does
the member itself, or it is the last that an outsider was sent. -/
def RegisteredBy (world : World n) (remote : String) (index : Fin n) (node : Node) : Prop :=
  (∃ through, world.Reaches remote through ∧
    (world.member through).nodes.getLast? = some node ∧
    (world.member index).nodes = (world.member through).nodes) ∨
  ∃ outsider target scripted, world.network.reach remote = some (.outsider outsider, target) ∧
    world.network.outsiders[outsider]? = some scripted ∧
    scripted.received.getLast? = some ⟨target.asking .propagate, .add node⟩

/-- The peer at an address took an operation as the last one and answered with some nodes: a member
with its registry, or an outsider with any nodes. -/
inductive TakenLast (waiting : Option (Fin n)) (operation : NodeOperation) (remote : String)
    (before : World n) (nodes : List Node) (after : World n) : Prop
  | member {through : Fin n} (reaches : before.Reaches remote through)
      (free : waiting ≠ some through) (listed : (after.member through).nodes = nodes)
      (applied : ∃ others, nodes = operation.apply others) :
      TakenLast waiting operation remote before nodes after
  | outsider {outsider : Nat} {target : Http.Target} {scripted : Outsider}
      (reached : before.network.reach remote = some (.outsider outsider, target))
      (there : after.network.outsiders[outsider]? = some scripted)
      (last : scripted.received.getLast? = some ⟨target.asking .propagate, operation⟩) :
      TakenLast waiting operation remote before nodes after

section Send

variable {waiting : Option (Fin n)} {operation : NodeOperation} {remote : String}
  {nodes : List Node} {world after : World n}

theorem receive_eq_ok {index : Fin n}
    (received : (receive index operation).run.run world = (.ok nodes, after)) :
    (after.member index).nodes = nodes ∧ ∃ others, nodes = operation.apply others := by
  rw [run_receive] at received
  obtain ⟨answered, rfl⟩ := Prod.mk.inj received
  rw [member_setMember_self, ← Except.ok.inj answered]
  exact ⟨rfl, _, rfl⟩

/-- A member that answers to an operation has applied it last. -/
theorem handle_eq_ok {index : Fin n} {delivery : Delivery}
    (handled : (handle waiting index operation delivery).run.run world = (.ok nodes, after)) :
    (after.member index).nodes = nodes ∧ ∃ others, nodes = operation.apply others := by
  simp only [handle] at handled
  split at handled
  · simp only [run_bind, run_look] at handled
    rcases announced : (announce waiting operation (world.member index).nodeId
      (world.member index).nodes).run.run world with ⟨halt | _, next⟩ <;> rw [announced] at handled
    · cases handled
    · exact receive_eq_ok handled
  · exact receive_eq_ok handled

/-- An outsider that answers was sent the operation last. -/
theorem consult_eq_ok {peer : String} {outsider : Nat} {received : Received}
    (consulted : (consult peer outsider received).run.run world = (.ok nodes, after)) :
    ∃ scripted, after.network.outsiders[outsider]? = some scripted ∧
      scripted.received.getLast? = some received := by
  simp only [consult, run_bind, run_get] at consulted
  cases there : world.network.outsiders[outsider]? with
  | none =>
    rw [there] at consulted
    cases consulted
  | some scripted =>
    obtain ⟨inside, _⟩ := List.getElem?_eq_some_iff.mp there
    simp only [there, run_bind, run_set] at consulted
    cases answered : (scripted.answer received).1 with
    | none =>
      rw [answered] at consulted
      cases consulted
    | some reply =>
      refine ⟨(scripted.answer received).2, ?_, ?_⟩
      · rw [answered] at consulted
        simp only [run_found] at consulted
        rw [← (Prod.mk.inj consulted).2]
        exact List.getElem?_set_self inside
      · rw [Outsider.received_answer, List.getLast?_concat]

/-- Who does not see the reply of a peer does not succeed. -/
theorem unseen_ne_ok {α : Type} {peer : String} {answer : Action n α} {value : α} :
    (unseen peer answer).run.run world ≠ (.ok value, after) := by
  intro ended
  simp only [unseen, run_tryCatch, run_bind] at ended
  rcases ran : answer.run.run world with ⟨(error | _) | other, next⟩ <;> rw [ran] at ended <;>
    cases ended

theorem contact_eq_ok
    (contacted : (contact waiting (fun index asked => handle waiting index operation asked) remote
      .propagate operation).run.run world = (.ok nodes, after)) :
    TakenLast waiting operation remote world nodes after := by
  simp only [contact, run_bind, run_get] at contacted
  cases reached : world.network.reach remote with
  | none =>
    rw [reached] at contacted
    cases contacted
  | some found =>
    obtain ⟨owner, target⟩ := found
    rw [reached] at contacted
    cases owner with
    | outsider outsider =>
      obtain ⟨scripted, there, last⟩ := consult_eq_ok contacted
      exact .outsider reached there last
    | member through =>
      dsimp only at contacted
      cases accepted :
        Http.PeerEndpoint.accept "POST" (target.asking .propagate) operation.isTooLong with
      | error response =>
        rw [accepted] at contacted
        cases contacted
      | ok asked =>
        obtain ⟨takes, _, rfl⟩ := Http.PeerEndpoint.accept_asking_eq_ok.mp accepted
        rw [accepted] at contacted
        dsimp only at contacted
        split at contacted
        · cases contacted
        next free =>
          simp only [relay, run_tryCatch] at contacted
          rcases handled : (handle waiting through operation .propagate).run.run world with
            ⟨(error | _) | listed, next⟩ <;> rw [handled] at contacted <;> cases contacted
          obtain ⟨listed, applied⟩ := handle_eq_ok handled
          exact .member (.of_reach reached takes) free listed applied

/-- A peer that answers to an operation that is to be passed on has taken it last. -/
theorem send_eq_ok
    (sent : (send waiting remote operation .propagate).run.run world = (.ok nodes, after)) :
    TakenLast waiting operation remote world nodes after := by
  simp only [send, exchange, run_bind, run_meetFate] at sent
  cases fate : world.network.fates.next with
  | delivered =>
    rw [fate] at sent
    cases contact_eq_ok sent with
    | member reaches free listed applied => exact .member reaches free listed applied
    | outsider reached there last => exact .outsider reached there last
  | requestLost =>
    rw [fate] at sent
    cases sent
  | replyLost =>
    rw [fate] at sent
    exact absurd sent unseen_ne_ok

end Send

section Entering

variable {world after : World n} {index : Fin n} {listen advertise : String}

/-- A member that starts a swarm opened an endpoint and lists its node last. -/
theorem initCluster_eq_ok {answer : Answer}
    (performed : (perform index (.initCluster listen advertise)).run.run world =
      (.ok answer, after)) :
    ∃ endpoint node opened, Opens world index listen advertise true endpoint node opened ∧
      answer = .identifier node.id ∧
      after = opened.setMember index ((opened.member index).entered endpoint node.id
        ((world.member index).nodes ++ [node])) := by
  have step := registryStep_initCluster world index listen advertise
  rw [performed] at step
  cases step with
  | kept same quiet =>
    obtain ⟨halt, failed⟩ := quiet rfl
    cases failed
  | started opens => exact ⟨_, _, _, opens, rfl, rfl⟩
  | spread announced => cases announced

/-- A member that joins a swarm opened an endpoint and was answered with the nodes it lists. -/
theorem joinCluster_eq_ok {remotes : List String} {answer : Answer}
    (performed : (perform index (.joinCluster remotes listen advertise)).run.run world =
      (.ok answer, after)) :
    ∃ remote endpoint node opened nodes next, remotes.head? = some remote ∧
      Opens world index listen advertise false endpoint node opened ∧
      (send (some index) remote (.add node) .propagate).run.run opened = (.ok nodes, next) ∧
      after = next.setMember index ((next.member index).entered endpoint node.id nodes) := by
  simp only [perform, run_bind, run_joinCluster] at performed
  cases outside : (world.member index).swarm with
  | some swarm =>
    rw [outside] at performed
    cases performed
  | none =>
    rw [outside] at performed
    cases remotes with
    | nil => cases performed
    | cons remote rest =>
      cases listened : world.listen index listen with
      | error error =>
        rw [listened] at performed
        cases performed
      | ok pair =>
        obtain ⟨endpoint, network⟩ := pair
        have opens : Opens world index listen advertise false endpoint _
          (world.listening index network) := ⟨outside, ⟨_, listened, rfl⟩, rfl⟩
        simp only [listened, Option.isSome_none, Bool.false_eq_true, if_false] at performed
        rcases sent : (send (some index) remote
          (.add ((world.member index).asNode advertise endpoint false)) .propagate).run.run
            (world.listening index network) with ⟨(error | _) | nodes, next⟩ <;>
          rw [sent] at performed <;> cases performed
        exact ⟨remote, endpoint, _, _, nodes, next, rfl, opens, sent, rfl⟩

end Entering

/-! ## Addresses are as asked for -/

section Asked

variable {world opened next after : World n} {index : Fin n} {listen advertise : String}
  {isLeader : Bool} {endpoint : Endpoint} {node : Node}

/-- A member that enters is in a swarm and listens on the endpoint it opened. -/
theorem Opens.enteredOn (opens : Opens world index listen advertise isLeader endpoint node opened)
    (sockets : next.network.openSockets = opened.network.openSockets) (nodes : List Node)
    (earlier : Network n) :
    ({ next.setMember index ((next.member index).entered endpoint node.id nodes) with
        network := next.network.settle earlier } : World n).EnteredOn index endpoint node.id := by
  refine ⟨?_, ?_, ?_⟩
  · rw [member_withNetwork, member_setMember_self]
    rfl
  · rw [member_withNetwork, member_setMember_self]
    rfl
  · rw [Network.openSockets_settle, sockets, opens.openSockets_eq]
    exact List.mem_append_right _ List.mem_cons_self

/-- A node that a peer took last is registered, when the member that sent it has entered. -/
theorem TakenLast.registeredBy {remote : String} {nodes : List Node}
    (taken : TakenLast (some index) (.add node) remote opened nodes next)
    (system : next.network.system = opened.network.system)
    (sockets : next.network.openSockets = opened.network.openSockets) {id : String}
    (earlier : Network n) :
    ({ next.setMember index ((next.member index).entered endpoint id nodes) with
        network := next.network.settle earlier } : World n).RegisteredBy remote index node := by
  let entered := next.setMember index ((next.member index).entered endpoint id nodes)
  let settled : World n := { entered with network := next.network.settle earlier }
  have sameSystem : settled.network.system = opened.network.system := system
  have reach_eq : settled.network.reach remote = opened.network.reach remote :=
    Network.reach_eq_of_openSockets sameSystem
      ((Network.openSockets_settle _ _).trans sockets) remote
  change settled.RegisteredBy remote index node
  cases taken with
  | @member through reaches free listed applied =>
    obtain ⟨others, rfl⟩ := applied
    have peer : (entered.member through).nodes = others ++ [node] := by
      rw [member_setMember_of_ne _ (ne_of_waiting through free), listed]
      rfl
    have own : (entered.member index).nodes = others ++ [node] := by
      rw [member_setMember_self]
      rfl
    have last : (settled.member through).nodes.getLast? = some node := by
      rw [← member_withNetwork entered (next.network.settle earlier)] at peer
      rw [peer, List.getLast?_concat]
    exact .inl ⟨through, (reaches_congr reach_eq through).mpr reaches, last, own.trans peer.symm⟩
  | @outsider outsider target scripted reached there last =>
    exact .inr ⟨outsider, target, scripted, reach_eq.trans reached, there, last⟩

/-- A step that succeeds ran its action to the end, and then the network settled. -/
theorem step_eq_ok {α : Type} {action : Action n α} {value : α}
    (performed : world.step action = (.ok value, after)) :
    ∃ next, action.run.run world = (.ok value, next) ∧
      after = { next with network := next.network.settle world.network } := by
  rcases ran : action.run.run world with ⟨outcome, next⟩
  simp only [step, ran] at performed
  obtain ⟨rfl, rfl⟩ := Prod.mk.inj performed
  exact ⟨next, rfl, rfl⟩

end Asked

/-- **A member registers the address it is asked to register.**  On every system, if it starts a
swarm or joins one, it listens on an address of the configured host, at the port asked for or else
at one the system chooses; and the node that it or its peer registers bears the host and port asked
for, with the configured host and the port of the endpoint in place of missing ones, and an address
that says this host and this port again. -/
theorem addresses_as_asked (world : World n) (index : Fin n) (listen advertise : String) :
    (∀ answer after,
      world.step (perform index (.initCluster listen advertise)) = (.ok answer, after) →
      ∃ endpoint node host port,
        (world.member index).settings.Heeded world.network.system listen advertise endpoint host
          port ∧
        node.Bears host port ∧ after.EnteredOn index endpoint node.id ∧
        answer = .identifier node.id ∧
        (after.member index).nodes = (world.member index).nodes ++ [node]) ∧
    ∀ remotes answer after,
      world.step (perform index (.joinCluster remotes listen advertise)) = (.ok answer, after) →
      ∃ remote endpoint node host port,
        (world.member index).settings.Heeded world.network.system listen advertise endpoint host
          port ∧
        node.Bears host port ∧ after.EnteredOn index endpoint node.id ∧
        remotes.head? = some remote ∧ after.RegisteredBy remote index node := by
  constructor
  · intro answer after performed
    obtain ⟨entered, ran, rfl⟩ := step_eq_ok performed
    obtain ⟨endpoint, node, opened, opens, rfl, rfl⟩ := initCluster_eq_ok ran
    obtain ⟨host, port, heeded, bears⟩ := opens.heeded
    refine ⟨endpoint, node, host, port, heeded, bears, opens.enteredOn rfl _ _, rfl, ?_⟩
    rw [member_withNetwork, member_setMember_self]
    rfl
  · intro remotes answer after performed
    obtain ⟨entered, ran, rfl⟩ := step_eq_ok performed
    obtain ⟨remote, endpoint, node, opened, nodes, next, first, opens, sent, rfl⟩ :=
      joinCluster_eq_ok ran
    obtain ⟨host, port, heeded, bears⟩ := opens.heeded
    have intact := keeps_send (overlooks_intact index) ne_of_waiting remote (.add node) .propagate
      opened
    have system := keeps_send (overlooks_system (· ≠ index)) ne_of_waiting remote (.add node)
      .propagate opened
    rw [sent] at intact system
    exact ⟨remote, endpoint, node, host, port, heeded, bears,
      opens.enteredOn intact.openSockets_eq _ _, first,
      (send_eq_ok sent).registeredBy system intact.openSockets_eq _⟩

/-- A member starts a swarm and advertises a host with colons, and another joins it and is asked for
nothing. -/
theorem addresses_as_asked_colonsInHost :
    let started := twoMembers.step (perform 0 (.initCluster ":4000" "fe80::1:4500"))
    let joined := started.2.step (perform 1 (.joinCluster ["127.0.0.1:4000"] "" ""))
    halt? started.1 = none ∧ halt? joined.1 = none ∧
      (∃ endpoint node, node.Bears "fe80::1" 4500 ∧ started.2.EnteredOn 0 endpoint node.id ∧
        (started.2.member 0).nodes = [node]) ∧
      ∃ endpoint node, node.Bears "127.0.0.1" endpoint.port ∧
        joined.2.EnteredOn 1 endpoint node.id ∧ joined.2.RegisteredBy "127.0.0.1:4000" 1 node := by
  intro started joined
  have starts : halt? started.1 = none := by decide +kernel
  have joins : halt? joined.1 = none := by decide +kernel
  refine ⟨starts, joins, ?_, ?_⟩
  · obtain ⟨answer, ended⟩ := halt?_eq_none.mp starts
    obtain ⟨endpoint, node, host, port, heeded, bears, entered, _, listed⟩ :=
      (addresses_as_asked twoMembers 0 ":4000" "fe80::1:4500").1 answer started.2
        (Prod.ext ended rfl)
    have split : Address.splitHostPort "fe80::1:4500" = ("fe80::1", some 4500) := by decide +kernel
    obtain ⟨rfl, rfl⟩ := heeded.advertised
    rw [split] at bears
    exact ⟨endpoint, node, bears, entered, listed⟩
  · obtain ⟨answer, ended⟩ := halt?_eq_none.mp joins
    obtain ⟨remote, endpoint, node, host, port, heeded, bears, entered, first, registered⟩ :=
      (addresses_as_asked started.2 1 "" "").2 ["127.0.0.1:4000"] answer joined.2
        (Prod.ext ended rfl)
    have split : Address.splitHostPort "" = ("", none) := by decide +kernel
    have settings : (started.2.member 1).settings.advertiseHost = "127.0.0.1" := by decide +kernel
    obtain ⟨rfl, rfl⟩ := heeded.advertised
    rw [split, settings] at bears
    cases first
    exact ⟨endpoint, node, bears, entered, registered⟩

end World

end SwarmManager
