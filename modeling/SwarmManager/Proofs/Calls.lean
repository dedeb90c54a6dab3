import SwarmManager.Proofs.Delivery
import Mathlib.Logic.Function.Iterate

/-!
# Calls to peers

One call to a peer is one exchange.  Whatever becomes of it, the operation is taken by
whom the address reaches or by nobody, and if the call succeeds it is taken
(`called_send`).

An announcement calls the peers of a member one after the other.  It succeeds if all of
them answer (`run_callAll_ok`), and otherwise ends with the first call that fails
(`run_callAll_error`).  What it leaves behind is told by the peers that took the
operation (`Delivered`).
-/

namespace SwarmManager

set_option autoImplicit false

variable {n : Nat}

namespace World

/-! ## Whom an announcement is for -/

/-- The addresses of the peers of a member, in the order of its registry: those of the
listed nodes but its own. -/
def peersOf (selfId : Option String) (nodes : List Node) : List String :=
  (nodes.filter fun node => selfId ≠ some node.id).filterMap Node.peerAddress?

theorem mem_peersOf {selfId : Option String} {nodes : List Node} {peer : String} :
    peer ∈ peersOf selfId nodes ↔
      ∃ node ∈ nodes, selfId ≠ some node.id ∧ node.peerAddress? = some peer := by
  simp only [peersOf, List.mem_filterMap, List.mem_filter, decide_eq_true_eq, and_assoc]

/-- Whether somebody takes operations at an address: a member that listens for them, or
an outsider. -/
def Takes (world : World n) (peer : String) : Prop :=
  (∃ index, world.Reaches peer index) ∨
    ∃ outsider target, world.network.reach peer = some (.outsider outsider, target)

/-- How often an operation that is sent to some peers reaches a member. -/
def timesReached (world : World n) (peers : List String) (index : Fin n) : Nat :=
  peers.countP fun peer => world.Reaches peer index

/-- An address that reaches a member reaches it once, and no other. -/
theorem timesReached_singleton {world : World n} {peer : String} {index : Fin n}
    (reaches : world.Reaches peer index) (other : Fin n) :
    world.timesReached [peer] other = if other = index then 1 else 0 := by
  rw [timesReached, List.countP_singleton]
  by_cases here : other = index
  · subst here
    rw [if_pos rfl, if_pos (by simpa using reaches)]
  · have apart : ¬ world.Reaches peer other := fun also => here (reaches.unique also)
    rw [if_neg here, if_neg (by simpa using apart)]

/-- What an outsider is sent when an operation is sent to some peers. -/
def recorded (world : World n) (operation : NodeOperation) (peers : List String)
    (outsider : Nat) : List Received :=
  peers.filterMap fun peer =>
    match world.network.reach peer with
    | some (.outsider other, target) =>
        if other = outsider then some ⟨target.asking .terminal, operation⟩ else none
    | _ => none

section Reach

variable (one two : World n) (same : ∀ peer, one.network.reach peer = two.network.reach peer)
include same

theorem timesReached_congr (peers : List String) (index : Fin n) :
    one.timesReached peers index = two.timesReached peers index :=
  List.countP_congr fun peer _ => by
    rw [decide_eq_true_iff, decide_eq_true_iff, reaches_congr (same peer)]

theorem recorded_congr (operation : NodeOperation) (peers : List String) (outsider : Nat) :
    one.recorded operation peers outsider = two.recorded operation peers outsider := by
  simp only [recorded, same]

end Reach

/-- Some peers took an operation in so many exchanges, and nothing else happened: a
member applied it once for each of the addresses that reaches it. -/
structure Delivered (operation : NodeOperation) (peers : List String) (calls : Nat)
    (before after : World n) : Prop where
  member_eq : ∀ index, after.member index =
    { before.member index with
      nodes := operation.apply^[before.timesReached peers index] (before.member index).nodes }
  received_eq : ∀ outsider, after.network.outsiders[outsider]?.map Outsider.received =
    before.network.outsiders[outsider]?.map fun scripted =>
      scripted.received ++ before.recorded operation peers outsider
  network_eq : ∃ outsiders, after.network =
    { before.network with
      fates := { before.network.fates with met := before.network.fates.met + calls }
      outsiders := outsiders }

namespace Delivered

variable {operation : NodeOperation} {first second : List String} {earlier later : Nat}
  {before middle after : World n}

theorem none (operation : NodeOperation) (world : World n) :
    Delivered operation [] 0 world world where
  member_eq _ := rfl
  received_eq outsider := by simp [recorded]
  network_eq := ⟨world.network.outsiders, rfl⟩

theorem sockets_eq (delivered : Delivered operation first earlier before after) :
    after.network.sockets = before.network.sockets := by
  obtain ⟨outsiders, same⟩ := delivered.network_eq
  rw [same]

theorem system_eq (delivered : Delivered operation first earlier before after) :
    after.network.system = before.network.system := by
  obtain ⟨outsiders, same⟩ := delivered.network_eq
  rw [same]

theorem reach_eq (delivered : Delivered operation first earlier before after) (address : String) :
    after.network.reach address = before.network.reach address :=
  Network.reach_congr delivered.system_eq delivered.sockets_eq address

/-- What is delivered to some peers and then to others is delivered to all of them. -/
theorem append (early : Delivered operation first earlier before middle)
    (late : Delivered operation second later middle after) :
    Delivered operation (first ++ second) (earlier + later) before after where
  member_eq index := by
    have counted : before.timesReached (first ++ second) index =
        before.timesReached second index + before.timesReached first index := by
      rw [timesReached, List.countP_append, Nat.add_comm]
      rfl
    rw [late.member_eq, early.member_eq, timesReached_congr middle before early.reach_eq, counted,
      Function.iterate_add_apply]
  received_eq outsider := by
    rw [late.received_eq, recorded_congr middle before early.reach_eq]
    have received := early.received_eq outsider
    cases known : middle.network.outsiders[outsider]? <;>
      cases old : before.network.outsiders[outsider]? <;> rw [known, old] at received
    · rfl
    · cases received
    · cases received
    · have recordedEarly := Option.some.inj received
      simp only [Option.map_some, recordedEarly, recorded, List.filterMap_append, List.append_assoc]
  network_eq := by
    obtain ⟨_, one⟩ := early.network_eq
    obtain ⟨outsiders, two⟩ := late.network_eq
    exact ⟨outsiders, by rw [two, one, Nat.add_assoc]⟩

/-- An exchange meets its fate before anything is delivered. -/
theorem met (delivered : Delivered operation first earlier
    { before with network := before.network.advanceFate } after) :
    Delivered operation first (earlier + 1) before after := by
  obtain ⟨members, received, network⟩ := delivered
  let started : World n := { before with network := before.network.advanceFate }
  have same : ∀ peer, started.network.reach peer = before.network.reach peer := fun _ => rfl
  refine ⟨fun index => ?_, fun outsider => ?_, ?_⟩
  · rw [← timesReached_congr started before same]
    exact members index
  · rw [← recorded_congr started before same]
    exact received outsider
  · obtain ⟨outsiders, same⟩ := network
    refine ⟨outsiders, same.trans ?_⟩
    simp only [Network.advanceFate, Fates.advance, Nat.add_assoc, Nat.add_comm 1]

end Delivered

/-! ## One call -/

/-- The operation is only applied by who is sent it as a terminal delivery. -/
theorem handle_terminal (waiting : Option (Fin n)) (index : Fin n) (operation : NodeOperation) :
    handle waiting index operation .terminal = receive index operation := by
  simp only [handle, reduceCtorEq, ↓reduceIte]

/-- A contact depends only on what members do with an operation that is to be delivered in
the way that is asked for. -/
theorem contact_congr {one two : Serve n} {delivery : Delivery}
    (same : ∀ index, one index delivery = two index delivery) (waiting : Option (Fin n))
    (peer : String) (operation : NodeOperation) :
    contact waiting one peer delivery operation = contact waiting two peer delivery operation := by
  simp only [contact]
  refine bind_congr fun world => ?_
  cases world.network.reach peer with
  | none => rfl
  | some reached =>
    obtain ⟨owner, target⟩ := reached
    cases owner with
    | outsider outsider => rfl
    | member index =>
      dsimp only
      cases accepted :
        Http.PeerEndpoint.accept "POST" (target.asking delivery) operation.isTooLong with
      | error response => rfl
      | ok asked =>
        obtain ⟨_, _, rfl⟩ := Http.PeerEndpoint.accept_asking_eq_ok.mp accepted
        simp only [same]

theorem sendTerminal_eq_send (waiting : Option (Fin n)) (peer : String)
    (operation : NodeOperation) :
    sendTerminal waiting peer operation = send waiting peer operation .terminal := by
  simp only [sendTerminal, send, exchange]
  rw [contact_congr fun index => (handle_terminal waiting index operation).symm]

end World

/-- Whether an error says that a call to a peer failed: the peer is out of reach, answers
with another status than 200, or answers with no list of nodes. -/
def Error.OfCall (peer : String) : Error → Prop
  | .peerUnreachable other => other = peer
  | .unexpectedPeerResponse other status => other = peer ∧ status ≠ 200
  | .json _ => True
  | _ => False

theorem Outsider.received_answer (outsider : Outsider) (received : Received) :
    (outsider.answer received).2.received = outsider.received ++ [received] := by
  simp only [answer]
  split <;> rfl

namespace World

/-- What may become of a call to a peer. -/
structure Called (waiting : Option (Fin n)) (operation : NodeOperation) (peer : String)
    (calls : Nat) (before : World n) (outcome : Except Halt (List Node)) (after : World n) :
    Prop where
  taken : ∃ took, (took = [] ∨ took = [peer]) ∧ Delivered operation took calls before after
  answered : ∀ nodes, outcome = .ok nodes →
    before.Takes peer ∧ Delivered operation [peer] calls before after
  failed : ∀ error, outcome = .error (.failed error) → error.OfCall peer
  stalled : outcome = .error .stalled → ∃ index ∈ waiting, before.Reaches peer index

section Call

variable {waiting : Option (Fin n)} {operation : NodeOperation} {peer : String} {calls : Nat}
  {before world after : World n}

/-- A call that fails may have been taken by nobody. -/
theorem Called.missed (delivered : Delivered operation [] calls before after) {error : Error}
    (ofCall : error.OfCall peer) :
    Called waiting operation peer calls before (.error (.failed error)) after where
  taken := ⟨[], .inl rfl, delivered⟩
  answered := nofun
  failed := by
    rintro _ ⟨⟩
    exact ofCall
  stalled := nofun

/-- A call that fails may have been taken all the same. -/
theorem Called.unanswered (delivered : Delivered operation [peer] calls before after)
    {error : Error} (ofCall : error.OfCall peer) :
    Called waiting operation peer calls before (.error (.failed error)) after where
  taken := ⟨[peer], .inr rfl, delivered⟩
  answered := nofun
  failed := by
    rintro _ ⟨⟩
    exact ofCall
  stalled := nofun

theorem Called.ok (takes : before.Takes peer)
    (delivered : Delivered operation [peer] calls before after) (nodes : List Node) :
    Called waiting operation peer calls before (.ok nodes) after where
  taken := ⟨[peer], .inr rfl, delivered⟩
  answered _ _ := ⟨takes, delivered⟩
  failed := nofun
  stalled := nofun

/-- A call stalls if it reaches the member that waits. -/
theorem Called.waited {index : Fin n} (waits : waiting = some index)
    (reaches : world.Reaches peer index) :
    Called waiting operation peer 0 world (.error .stalled) world where
  taken := ⟨[], .inl rfl, .none operation world⟩
  answered := by rintro _ ⟨⟩
  failed := by rintro _ ⟨⟩
  stalled _ := ⟨index, waits, reaches⟩

/-- An outsider that is reached records the operation, if there is one. -/
theorem delivered_outsider {outsider : Nat} {target : Http.Target}
    (reached : world.network.reach peer = some (.outsider outsider, target)) {scripted : Outsider}
    (there : world.network.outsiders[outsider]? = some scripted) :
    Delivered operation [peer] 0 world
      { world with network := { world.network with
          outsiders := world.network.outsiders.set outsider
            (scripted.answer ⟨target.asking .terminal, operation⟩).2 } } where
  member_eq index := by
    have apart : ¬ world.Reaches peer index := by
      simp [Reaches, reached]
    have never : world.timesReached [peer] index = 0 := by
      rw [timesReached, List.countP_singleton, if_neg (by simpa using apart)]
    rw [never]
    rfl
  received_eq other := by
    by_cases here : outsider = other
    · subst here
      obtain ⟨inside, found⟩ := List.getElem?_eq_some_iff.mp there
      rw [List.getElem?_set_self inside, there]
      simp only [Option.map_some, Outsider.received_answer, recorded, List.filterMap_cons, reached,
        ↓reduceIte, List.filterMap_nil]
    · rw [List.getElem?_set_ne here]
      simp only [recorded, List.filterMap_cons, reached, here, ↓reduceIte, List.filterMap_nil,
        List.append_nil]
  network_eq := ⟨_, rfl⟩

/-- A member that is reached applies the operation. -/
theorem delivered_member {index : Fin n} (reaches : world.Reaches peer index) :
    Delivered operation [peer] 0 world (world.setMember index
      { world.member index with nodes := operation.apply (world.member index).nodes }) where
  member_eq other := by
    rw [timesReached_singleton reaches]
    by_cases here : other = index
    · subst here
      rw [member_setMember_self, if_pos rfl]
      rfl
    · rw [member_setMember_of_ne _ here, if_neg here]
      rfl
  received_eq outsider := by
    obtain ⟨target, reached, _⟩ := reaches.exists_target
    have none : world.recorded operation [peer] outsider = [] := by
      simp only [recorded, List.filterMap_cons, reached, List.filterMap_nil]
    simp only [none, List.append_nil, network_setMember]
  network_eq := ⟨_, rfl⟩

/-- What cannot be made sense of in a reply is an error of the call. -/
theorem ofCall_of_readReply {reply : Reply} {error : Error}
    (unread : readReply peer reply = .error error) : error.OfCall peer := by
  simp only [readReply] at unread
  split at unread
  next other =>
    cases unread
    exact ⟨rfl, other⟩
  next =>
    cases decoded : nodeListCodec.ofText reply.body <;> rw [decoded] at unread <;> cases unread
    trivial

theorem called_consult {outsider : Nat} {target : Http.Target}
    (reached : world.network.reach peer = some (.outsider outsider, target)) :
    Called waiting operation peer 0 world
      ((consult peer outsider ⟨target.asking .terminal, operation⟩).run.run world).1
      ((consult peer outsider ⟨target.asking .terminal, operation⟩).run.run world).2 := by
  simp only [consult, run_bind, run_get]
  cases there : world.network.outsiders[outsider]? with
  | none => exact .missed (.none operation world) rfl
  | some scripted =>
    simp only [run_bind, run_set]
    have delivered : Delivered operation [peer] 0 world _ := delivered_outsider reached there
    cases (scripted.answer ⟨target.asking .terminal, operation⟩).1 with
    | none => exact .unanswered delivered rfl
    | some reply =>
      simp only [run_found]
      cases read : readReply peer reply with
      | ok nodes => exact .ok (.inr ⟨outsider, target, reached⟩) delivered nodes
      | error fault => exact .unanswered delivered (ofCall_of_readReply read)

theorem called_contact :
    Called waiting operation peer 0 world
      ((contact waiting (fun index _ => receive index operation) peer .terminal
        operation).run.run world).1
      ((contact waiting (fun index _ => receive index operation) peer .terminal
        operation).run.run world).2 := by
  simp only [contact, run_bind, run_get]
  cases reached : world.network.reach peer with
  | none => exact .missed (.none operation world) rfl
  | some found =>
    obtain ⟨owner, target⟩ := found
    cases owner with
    | outsider outsider => exact called_consult reached
    | member index =>
      dsimp only
      cases accepted :
        Http.PeerEndpoint.accept "POST" (target.asking .terminal) operation.isTooLong with
      | error response =>
        exact .missed (.none operation world)
          ⟨rfl, Http.PeerEndpoint.status_ne_of_accept accepted⟩
      | ok asked =>
        have reaches : world.Reaches peer index :=
          .of_reach reached (Http.PeerEndpoint.accept_asking_eq_ok.mp accepted).1
        dsimp only
        split
        next waits =>
          exact .waited waits reaches
        next =>
          simp only [relay, run_tryCatch, run_receive]
          exact .ok (.inl ⟨index, reaches⟩) (delivered_member reaches) _

theorem takes_congr {one two : World n}
    (same : ∀ peer, one.network.reach peer = two.network.reach peer) (peer : String) :
    one.Takes peer ↔ two.Takes peer := by
  simp only [Takes, Reaches, same]

/-- An exchange meets its fate before it is carried out. -/
theorem Called.met {outcome : Except Halt (List Node)}
    (called : Called waiting operation peer calls
      { world with network := world.network.advanceFate } outcome after) :
    Called waiting operation peer (calls + 1) world outcome after := by
  let started : World n := { world with network := world.network.advanceFate }
  have same : ∀ address, started.network.reach address = world.network.reach address := fun _ => rfl
  refine ⟨?_, fun nodes ok => ?_, called.failed, fun stalls => ?_⟩
  · obtain ⟨took, which, delivered⟩ := called.taken
    exact ⟨took, which, delivered.met⟩
  · obtain ⟨takes, delivered⟩ := called.answered nodes ok
    exact ⟨(takes_congr same peer).mp takes, delivered.met⟩
  · obtain ⟨index, waits, reaches⟩ := called.stalled stalls
    exact ⟨index, waits, (reaches_congr (same peer) index).mp reaches⟩

/-- Without its reply a call fails, whoever took the operation. -/
theorem Called.unseen {answer : Action n (List Node)}
    (called : Called waiting operation peer calls world (answer.run.run world).1
      (answer.run.run world).2) :
    Called waiting operation peer calls world ((World.unseen peer answer).run.run world).1
      ((World.unseen peer answer).run.run world).2 := by
  revert called
  simp only [World.unseen, run_tryCatch, run_bind]
  rcases answer.run.run world with ⟨(error | _) | nodes, next⟩ <;> intro called
  · refine ⟨called.taken, nofun, ?_, nofun⟩
    rintro _ ⟨⟩
    rfl
  · exact called
  · refine ⟨called.taken, nofun, ?_, nofun⟩
    rintro _ ⟨⟩
    rfl

/-- A call is one exchange, and leaves behind what `Called` says. -/
theorem called_send (waiting : Option (Fin n)) (operation : NodeOperation) (peer : String)
    (world : World n) :
    Called waiting operation peer 1 world
      ((send waiting peer operation .terminal).run.run world).1
      ((send waiting peer operation .terminal).run.run world).2 := by
  have contacted : Called waiting operation peer 0
      { world with network := world.network.advanceFate } _ _ := called_contact
  rw [← sendTerminal_eq_send]
  simp only [sendTerminal, exchange, run_bind, run_meetFate]
  cases world.network.fates.next with
  | delivered => exact contacted.met
  | requestLost => exact Called.met (.missed (.none operation _) rfl)
  | replyLost => exact contacted.unseen.met

end Call

/-! ## One call after the other -/

/-- Call some peers one after the other, up to the first failure. -/
def callAll (waiting : Option (Fin n)) (operation : NodeOperation) : List String → Action n Unit
  | [] => return ()
  | peer :: rest => do
      let _ ← send waiting peer operation .terminal
      callAll waiting operation rest

/-- An announcement calls the peers of the member. -/
theorem announce_eq_callAll (waiting : Option (Fin n)) (operation : NodeOperation)
    (selfId : Option String) (nodes : List Node) :
    announce waiting operation selfId nodes =
      callAll waiting operation (peersOf selfId nodes) := by
  induction nodes with
  | nil => rfl
  | cons node rest ih =>
    simp only [announce, peersOf, sendTerminal_eq_send]
    by_cases other : selfId ≠ some node.id
    · rw [if_pos other, List.filter_cons_of_pos (by simpa using other), List.filterMap_cons]
      cases node.peerAddress? with
      | none => exact ih
      | some peer => rw [callAll, ih, peersOf]
    · rw [if_neg other, List.filter_cons_of_neg (by simpa using other)]
      exact ih

/-- Peers that are called one after the other, each of which answers. -/
inductive Answering (waiting : Option (Fin n)) (operation : NodeOperation) :
    World n → List String → World n → Prop
  | none (world : World n) : Answering waiting operation world [] world
  | more {world next after : World n} {peer : String} {rest : List String} {nodes : List Node}
      (answers : (send waiting peer operation .terminal).run.run world = (.ok nodes, next))
      (others : Answering waiting operation next rest after) :
      Answering waiting operation world (peer :: rest) after

/-- After some peers that answer, one fails. -/
def FailingAt (waiting : Option (Fin n)) (operation : NodeOperation) (world : World n)
    (contacted : List String) (peer : String) (halt : Halt) (after : World n) : Prop :=
  ∃ middle, Answering waiting operation world contacted middle ∧
    (send waiting peer operation .terminal).run.run middle = (.error halt, after)

section CallAll

variable {waiting : Option (Fin n)} {operation : NodeOperation} {peers : List String}
  {world after : World n} {halt : Halt}

/-- Calls succeed if all peers answer. -/
theorem run_callAll_ok :
    (callAll waiting operation peers).run.run world = (.ok ⟨⟩, after) ↔
      Answering waiting operation world peers after := by
  induction peers generalizing world with
  | nil =>
    constructor
    · rintro ⟨⟩
      exact .none _
    · rintro ⟨⟩
      rfl
  | cons peer rest ih =>
    simp only [callAll, run_bind]
    rcases called : (send waiting peer operation .terminal).run.run world with ⟨halt | nodes, next⟩
    · constructor
      · rintro ⟨⟩
      · rintro (_ | ⟨answers, _⟩)
        cases called.symm.trans answers
    · constructor
      · exact fun run => .more called (ih.mp run)
      · rintro (_ | ⟨answers, others⟩)
        cases called.symm.trans answers
        exact ih.mpr others

/-- Calls fail with the first peer that fails. -/
theorem run_callAll_error :
    (callAll waiting operation peers).run.run world = (.error halt, after) ↔
      ∃ contacted peer later, peers = contacted ++ peer :: later ∧
        FailingAt waiting operation world contacted peer halt after := by
  induction peers generalizing world with
  | nil =>
    constructor
    · rintro ⟨⟩
    · rintro ⟨contacted, peer, later, split, _⟩
      simp at split
  | cons peer rest ih =>
    simp only [callAll, run_bind]
    rcases called : (send waiting peer operation .terminal).run.run world with ⟨other | nodes, next⟩
    · constructor
      · rintro ⟨⟩
        exact ⟨[], peer, rest, rfl, ⟨world, .none world, called⟩⟩
      · rintro ⟨contacted, failing, later, split, ⟨middle, answering, fails⟩⟩
        cases answering with
        | none =>
          obtain ⟨rfl, rfl⟩ := List.cons.inj split
          cases called.symm.trans fails
          rfl
        | more answers others =>
          obtain ⟨rfl, _⟩ := List.cons.inj split
          cases called.symm.trans answers
    · constructor
      · intro run
        obtain ⟨contacted, failing, later, rfl, ⟨middle, answering, fails⟩⟩ := ih.mp run
        exact ⟨peer :: contacted, failing, later, rfl, ⟨middle, .more called answering, fails⟩⟩
      · rintro ⟨contacted, failing, later, split, ⟨middle, answering, fails⟩⟩
        cases answering with
        | none =>
          obtain ⟨rfl, rfl⟩ := List.cons.inj split
          cases called.symm.trans fails
        | more answers others =>
          obtain ⟨rfl, rfl⟩ := List.cons.inj split
          cases called.symm.trans answers
          exact ih.mpr ⟨_, failing, later, rfl, ⟨middle, others, fails⟩⟩

/-- Peers that answer have taken the operation. -/
theorem Answering.delivered (answering : Answering waiting operation world peers after) :
    (∀ peer ∈ peers, world.Takes peer) ∧
      Delivered operation peers peers.length world after := by
  induction answering with
  | none world => exact ⟨nofun, .none operation world⟩
  | @more world next after peer rest nodes answers others ih =>
    have called := called_send waiting operation peer world
    rw [answers] at called
    obtain ⟨takes, delivered⟩ := called.answered nodes rfl
    obtain ⟨takeLater, deliveredLater⟩ := ih
    refine ⟨fun other listed => ?_, ?_⟩
    · rcases List.mem_cons.mp listed with rfl | later
      · exact takes
      · exact (takes_congr delivered.reach_eq other).mp (takeLater other later)
    · rw [List.length_cons, Nat.add_comm]
      exact delivered.append deliveredLater

/-- The peers before the first that fails have taken the operation, and that one may
have. -/
theorem FailingAt.delivered {contacted : List String} {peer : String}
    (failing : FailingAt waiting operation world contacted peer halt after) :
    (∀ other ∈ contacted, world.Takes other) ∧
      ∃ took, (took = contacted ∨ took = contacted ++ [peer]) ∧
        Delivered operation took (contacted.length + 1) world after := by
  obtain ⟨middle, answering, fails⟩ := failing
  obtain ⟨takes, delivered⟩ := answering.delivered
  have called := called_send waiting operation peer middle
  rw [fails] at called
  obtain ⟨took, which, last⟩ := called.taken
  refine ⟨takes, contacted ++ took, ?_, delivered.append last⟩
  rcases which with rfl | rfl
  · exact .inl (List.append_nil contacted)
  · exact .inr rfl

/-- What fails is a call, or one of the peers is the member that waits. -/
theorem FailingAt.halt_cases {contacted : List String} {peer : String}
    (failing : FailingAt waiting operation world contacted peer halt after) :
    (∃ error, halt = .failed error ∧ error.OfCall peer) ∨
      halt = .stalled ∧ ∃ index ∈ waiting, world.Reaches peer index := by
  obtain ⟨middle, answering, fails⟩ := failing
  have called := called_send waiting operation peer middle
  rw [fails] at called
  cases halt with
  | failed error => exact .inl ⟨error, rfl, called.failed error rfl⟩
  | stalled =>
    obtain ⟨index, waits, reaches⟩ := called.stalled rfl
    exact .inr ⟨rfl, index, waits,
      (reaches_congr (answering.delivered.2.reach_eq peer) index).mp reaches⟩

end CallAll

end World
end SwarmManager
