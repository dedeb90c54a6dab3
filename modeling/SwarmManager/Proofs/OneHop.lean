import SwarmManager.Proofs.Calls
import SwarmManager.Proofs.Responses
import SwarmManager.Proofs.Start

/-!
# One hop

An operation that a member has others apply travels one hop: the member sends it to each
of its peers as a terminal delivery, in the order of its registry, and who is sent it so
sends nothing.  The member itself applies it last, and only if all peers answered.

`operations_travel_one_hop` says this of announcements as such, of those who receive
them, and of the requests that announce.
-/

namespace SwarmManager

set_option autoImplicit false

variable {n : Nat}

/-! ## Requests that announce -/

/-- The operation that a request has a member announce to its peers. -/
def Command.announced? (member : Member) : Command → Option NodeOperation
  | .updateNode id spec =>
      (member.inspectNode id).toOption.map fun node =>
        .update (node.withSpec spec member.supply.next.instant)
  | .deleteNode id => (member.inspectNode id).toOption.map .delete
  | .handleOperation operation .propagate => some operation
  | _ => none

/-- The member that serves nobody while it announces. -/
def Command.waiting (index : Fin n) : Command → Option (Fin n)
  | .handleOperation _ _ => none
  | _ => some index

namespace World

/-- The world in which the announcement of a request begins: to update a node takes a
draw. -/
def announcing (world : World n) (index : Fin n) : Command → World n
  | .updateNode _ _ => world.setMember index ((world.member index).drew 1)
  | _ => world

/-- The peers of a member, in the order of its registry. -/
def peers (world : World n) (index : Fin n) : List String :=
  peersOf (world.member index).nodeId (world.member index).nodes

/-- The world after a member applied an operation. -/
def applied (world : World n) (index : Fin n) (operation : NodeOperation) : World n :=
  world.setMember index
    { world.member index with nodes := operation.apply (world.member index).nodes }

/-- All peers of a member took an operation in the order of its registry, and then the
member applied it. -/
structure SpreadToAll (index : Fin n) (operation : NodeOperation) (before after : World n) :
    Prop where
  taken : ∀ peer ∈ before.peers index, before.Takes peer
  others : ∀ other ≠ index, after.member other =
    { before.member other with
      nodes := operation.apply^[before.timesReached (before.peers index) other]
        (before.member other).nodes }
  own : after.member index =
    { before.member index with nodes := operation.apply (before.member index).nodes }
  received : ∀ outsider, after.network.outsiders[outsider]?.map Outsider.received =
    before.network.outsiders[outsider]?.map fun scripted =>
      scripted.received ++ before.recorded operation (before.peers index) outsider
  exchanges : after.network.fates.met = before.network.fates.met + (before.peers index).length

/-- Some first peers of a member took an operation, the next one failed but may have
taken it, and the member did not apply it. -/
structure SpreadUpTo (index : Fin n) (operation : NodeOperation) (contacted : List String)
    (failing : String) (before after : World n) : Prop where
  contacted_first : (contacted ++ [failing]) <+: before.peers index
  taken : ∀ peer ∈ contacted, before.Takes peer
  took : ∃ took, (took = contacted ∨ took = contacted ++ [failing]) ∧
    Delivered operation took (contacted.length + 1) before after
  own : after.member index = before.member index

variable {world before after : World n} {index : Fin n} {operation : NodeOperation}
  {command : Command}

/-- When an announcement begins members at most drew. -/
theorem member_announcing (world : World n) (index : Fin n) (command : Command) (other : Fin n) :
    ∃ count, (world.announcing index command).member other = (world.member other).drew count := by
  cases command with
  | updateNode id spec => exact member_setMember_drew world index 1 other
  | _ => exact ⟨0, rfl⟩

/-- So it is no matter to registries. -/
theorem nodes_announcing (world : World n) (index : Fin n) (command : Command) (other : Fin n) :
    ((world.announcing index command).member other).nodes = (world.member other).nodes := by
  obtain ⟨count, drew⟩ := world.member_announcing index command other
  rw [drew]
  rfl

theorem network_announcing (world : World n) (index : Fin n) (command : Command) :
    (world.announcing index command).network = world.network := by
  cases command <;> rfl

/-- A draw is no matter for who the peers are. -/
theorem peers_announcing (world : World n) (index : Fin n) (command : Command) :
    (world.announcing index command).peers index = world.peers index := by
  obtain ⟨count, drew⟩ := world.member_announcing index command index
  rw [peers, drew]
  rfl

theorem reach_announcing (world : World n) (index : Fin n) (command : Command) (address : String) :
    (world.announcing index command).network.reach address = world.network.reach address := by
  rw [network_announcing]

/-- A request that announces succeeds if the announcement does, and then the member
applies the operation. -/
theorem run_perform_announced
    (announced : command.announced? (world.member index) = some operation) :
    (∀ next, (callAll (command.waiting index) operation (world.peers index)).run.run
        (world.announcing index command) = (.ok ⟨⟩, next) →
      ∃ answer, (perform index command).run.run world =
        (.ok answer, next.applied index operation)) ∧
    ∀ halt next, (callAll (command.waiting index) operation (world.peers index)).run.run
        (world.announcing index command) = (.error halt, next) →
      (perform index command).run.run world = (.error halt, next) := by
  simp only [← peers_announcing world index command]
  simp only [peers, ← announce_eq_callAll]
  cases command with
  | updateNode id spec =>
    simp only [Command.announced?] at announced
    obtain ⟨node, found, rfl⟩ := Option.map_eq_some_iff.mp announced
    simp only [perform, run_answer, run_updateNode, run_spread]
    cases looked : (world.member index).inspectNode id with
    | error error =>
      rw [looked] at found
      cases found
    | ok known =>
      rw [looked] at found
      cases found
      simp only [announcing, Command.waiting]
      constructor
      · intro next run
        rw [run]
        exact ⟨_, rfl⟩
      · intro halt next run
        rw [run]
        rfl
  | deleteNode id =>
    simp only [Command.announced?] at announced
    obtain ⟨node, found, rfl⟩ := Option.map_eq_some_iff.mp announced
    simp only [perform, run_bind, run_deleteNode, run_spread]
    cases looked : (world.member index).inspectNode id with
    | error error =>
      rw [looked] at found
      cases found
    | ok known =>
      rw [looked] at found
      cases found
      simp only [announcing, Command.waiting]
      constructor
      · intro next run
        rw [run]
        exact ⟨_, rfl⟩
      · intro halt next run
        rw [run]
  | handleOperation asked delivery =>
    cases delivery with
    | terminal => cases announced
    | propagate =>
      obtain rfl := Option.some.inj announced
      simp only [perform, handle, ↓reduceIte, run_bind, run_look, announcing, Command.waiting]
      constructor
      · intro next run
        rw [run]
        exact ⟨_, by simp only [run_receive]; rfl⟩
      · intro halt next run
        rw [run]
  | _ => cases announced

/-- What is sent to addresses that do not reach a member never reaches it. -/
theorem timesReached_eq_zero {peers : List String}
    (away : ∀ peer ∈ peers, ¬ world.Reaches peer index) : world.timesReached peers index = 0 :=
  List.countP_eq_zero.mpr fun peer listed => by simpa using away peer listed

/-- What is delivered to others leaves a member as it was. -/
theorem Delivered.member_eq_self {peers : List String} {calls : Nat}
    (delivered : Delivered operation peers calls before after)
    (away : ∀ peer ∈ peers, ¬ before.Reaches peer index) :
    after.member index = before.member index := by
  rw [delivered.member_eq, timesReached_eq_zero away]
  rfl

/-- If all peers answer, all have taken the operation before the member applies it. -/
theorem Answering.spreadToAll {waiting : Option (Fin n)} {next : World n}
    (answering : Answering waiting operation before (before.peers index) next)
    (away : ∀ peer ∈ before.peers index, ¬ before.Reaches peer index) :
    SpreadToAll index operation before (next.applied index operation) := by
  obtain ⟨taken, delivered⟩ := answering.delivered
  refine ⟨taken, fun other different => ?_, ?_, delivered.received_eq, ?_⟩
  · rw [applied, member_setMember_of_ne _ different]
    exact delivered.member_eq other
  · rw [applied, member_setMember_self, delivered.member_eq_self away]
  · obtain ⟨outsiders, same⟩ := delivered.network_eq
    rw [applied, network_setMember, same]

/-- If a peer fails, those before it have taken the operation. -/
theorem FailingAt.spreadUpTo {waiting : Option (Fin n)} {contacted later : List String}
    {peer : String} {halt : Halt}
    (failing : FailingAt waiting operation before contacted peer halt after)
    (split : before.peers index = contacted ++ peer :: later)
    (away : ∀ peer ∈ before.peers index, ¬ before.Reaches peer index) :
    SpreadUpTo index operation contacted peer before after := by
  obtain ⟨taken, took, which, delivered⟩ := failing.delivered
  have first : (contacted ++ [peer]) <+: before.peers index :=
    ⟨later, by rw [split, List.append_assoc, List.singleton_append]⟩
  refine ⟨first, taken, ⟨took, which, delivered⟩, ?_⟩
  refine delivered.member_eq_self fun other listed => away other (first.subset ?_)
  rcases which with rfl | rfl
  · exact List.mem_append_left _ listed
  · exact listed

/-- A request that announces, made to a member that none of its peer addresses reaches, has all
peers take the operation before the member applies it, or fails with the first peer that fails. -/
theorem perform_announced (announced : command.announced? (world.member index) = some operation)
    (away : ∀ peer ∈ world.peers index, ¬ world.Reaches peer index) :
    (∃ answer after, (perform index command).run.run world = (.ok answer, after) ∧
      SpreadToAll index operation (world.announcing index command) after) ∨
    ∃ error contacted peer after,
      (perform index command).run.run world = (.error (.failed error), after) ∧
      error.OfCall peer ∧
      FailingAt (command.waiting index) operation (world.announcing index command) contacted peer
        (.failed error) after ∧
      SpreadUpTo index operation contacted peer (world.announcing index command) after := by
  obtain ⟨succeeds, fails⟩ := run_perform_announced announced
  -- The announcement begins after a draw at most, which changes no address.
  have awayThen : ∀ peer ∈ (world.announcing index command).peers index,
      ¬ (world.announcing index command).Reaches peer index := by
    intro peer listed reaches
    rw [peers_announcing] at listed
    exact away peer listed
      ((reaches_congr (reach_announcing world index command peer) index).mp reaches)
  rw [← peers_announcing world index command] at succeeds fails
  rcases run : (callAll (command.waiting index) operation
      ((world.announcing index command).peers index)).run.run (world.announcing index command)
    with ⟨halt | _, next⟩
  · right
    obtain ⟨contacted, peer, later, split, failing⟩ := run_callAll_error.mp run
    rcases failing.halt_cases with ⟨error, rfl, ofCall⟩ | ⟨rfl, target, waits, reaches⟩
    · exact ⟨error, contacted, peer, next, fails _ next run, ofCall, failing,
        failing.spreadUpTo split awayThen⟩
    · -- Only a member that waits makes a call stall, and it is not reached.
      have own : target = index := by
        cases command <;> first | exact (Option.some.inj waits).symm | cases waits
      subst own
      refine absurd reaches (awayThen peer ?_)
      rw [split]
      exact List.mem_append_right _ List.mem_cons_self
  · left
    obtain ⟨answer, done⟩ := succeeds next run
    exact ⟨answer, _, done, (run_callAll_ok.mp run).spreadToAll awayThen⟩

/-! ## Receiving -/

/-- Who is sent an operation as a terminal delivery applies it once and sends nothing. -/
theorem run_perform_terminal (world : World n) (index : Fin n) (operation : NodeOperation) :
    (perform index (.handleOperation operation .terminal)).run.run world =
      (.ok (.nodes (operation.apply (world.member index).nodes)),
        world.applied index operation) := by
  simp only [perform, handle_terminal, run_bind, run_receive]
  rfl

end World

/-- So it is if the operation comes over HTTP. -/
theorem Http.PeerEndpoint.run_answer_terminal (world : World n) (index : Fin n)
    {request : Http.Request} {operation : NodeOperation}
    (posted : request.method = "POST") (path : request.target.path = Address.updateNodesPath)
    (short : request.body.size ≤ Http.maxBody) (asks : Asks request operation .terminal) :
    (answer index request).run.run world =
      (.ok (.ofValue (World.nodeListCodec.encode (operation.apply (world.member index).nodes))),
        world.applied index operation) := by
  obtain ⟨read, value, queried, terminal⟩ := asks
  have accepted : accept request.method request.target (maxBody < request.body.size) =
      .ok .terminal :=
    accept_eq_ok.mpr ⟨path, posted, ⟨value, queried, terminal⟩, by simpa using short⟩
  simp only [answer, answerWhile, accepted, answerBody, applyBody, read, run_tryCatch, run_bind,
    World.handle_terminal, World.run_found, World.run_receive, Except.mapError, reduceCtorEq,
    if_false]
  rfl

namespace World

/-- **Operations travel one hop.**  An announcement calls the peers of a member one after
the other, in the order of its registry; it succeeds if and only if all of them answer, and
otherwise ends with the first call that fails and with what that one failed of.  A call is
one exchange, of one terminal delivery, which is taken once or not at all; and who is sent
a terminal delivery applies it once and sends nothing.  So a request that announces, made to
a member that none of its peer addresses reaches, has all peers take the operation before the
member applies it, or fails with the first peer that fails and before the member applies
it. -/
theorem operations_travel_one_hop :
    (∀ (waiting : Option (Fin n)) (operation : NodeOperation) (selfId : Option String)
        (nodes : List Node) (world after : World n),
      ((announce waiting operation selfId nodes).run.run world = (.ok ⟨⟩, after) ↔
        Answering waiting operation world (peersOf selfId nodes) after) ∧
      ∀ halt, (announce waiting operation selfId nodes).run.run world = (.error halt, after) ↔
        ∃ contacted peer later, peersOf selfId nodes = contacted ++ peer :: later ∧
          FailingAt waiting operation world contacted peer halt after) ∧
    (∀ (waiting : Option (Fin n)) (operation : NodeOperation) (peer : String) (world : World n),
      Called waiting operation peer 1 world
        ((send waiting peer operation .terminal).run.run world).1
        ((send waiting peer operation .terminal).run.run world).2) ∧
    (∀ (world : World n) (index : Fin n) (operation : NodeOperation),
      (perform index (.handleOperation operation .terminal)).run.run world =
        (.ok (.nodes (operation.apply (world.member index).nodes)),
          world.applied index operation) ∧
      ∀ request : Http.Request, request.method = "POST" →
        request.target.path = Address.updateNodesPath → request.body.size ≤ Http.maxBody →
        Http.PeerEndpoint.Asks request operation .terminal →
        (Http.PeerEndpoint.answer index request).run.run world =
          (.ok (.ofValue (nodeListCodec.encode (operation.apply (world.member index).nodes))),
            world.applied index operation)) ∧
    ∀ (world : World n) (index : Fin n) (command : Command) (operation : NodeOperation),
      command.announced? (world.member index) = some operation →
      (∀ peer ∈ world.peers index, ¬ world.Reaches peer index) →
      (∃ answer after, (perform index command).run.run world = (.ok answer, after) ∧
        SpreadToAll index operation (world.announcing index command) after) ∨
      ∃ error contacted peer after,
        (perform index command).run.run world = (.error (.failed error), after) ∧
        error.OfCall peer ∧
        FailingAt (command.waiting index) operation (world.announcing index command) contacted peer
          (.failed error) after ∧
        SpreadUpTo index operation contacted peer (world.announcing index command) after := by
  refine ⟨?_, called_send, ?_, ?_⟩
  · intro waiting operation selfId nodes world after
    rw [announce_eq_callAll]
    exact ⟨run_callAll_ok, fun halt => run_callAll_error⟩
  · intro world index operation
    refine ⟨run_perform_terminal world index operation, ?_⟩
    intro request posted path short asks
    exact Http.PeerEndpoint.run_answer_terminal world index posted path short asks
  · intro world index command operation announced away
    exact perform_announced announced away

/-- A member removes the node of a peer.  If another peer has left it fails to, once the first
peer has removed the node and before the last one hears of it.  It removes the node all the
same if that is what it is sent over HTTP. -/
theorem operations_travel_one_hop_fourMembers :
    let gathered := fourMembers.after gathering
    let parted := fourMembers.after (gathering ++ [(2, .leaveCluster)])
    let body := "\x7b\"Op\":\"delete\",\"Node\":\x7b\"ID\":\"b\",\"Spec\":\x7b\x7d," ++
      "\"CreatedAt\":\"1970-01-01T00:00:00Z\",\"UpdatedAt\":\"1970-01-01T00:00:00Z\"\x7d\x7d"
    let request : Http.Request := ⟨"POST", ⟨Address.updateNodesPath, "propagate=0"⟩, body.toUTF8⟩
    (∃ operation answer after, operation.node.id = "b" ∧
      (perform 0 (.deleteNode "b")).run.run gathered = (.ok answer, after) ∧
      SpreadToAll 0 operation gathered after) ∧
    (∃ operation after, operation.node.id = "b" ∧
      (perform 0 (.deleteNode "b")).run.run parted =
        (.error (.failed (.peerUnreachable "127.0.0.1:32770")), after) ∧
      SpreadUpTo 0 operation ["127.0.0.1:32769"] "127.0.0.1:32770" parted after ∧
      (after.member 1).nodes.map Node.id = ["a", "c", "d"] ∧
      (after.member 3).nodes.map Node.id = ["a", "b", "c", "d"]) ∧
    ∃ operation, operation.kind = .delete ∧ operation.node.id = "b" ∧
      (Http.PeerEndpoint.answer 0 request).run.run parted =
        (.ok (.ofValue (nodeListCodec.encode (operation.apply (parted.member 0).nodes))),
          parted.applied 0 operation) := by
  intro gathered parted body request
  obtain ⟨_, _, received, requested⟩ := operations_travel_one_hop (n := 4)
  refine ⟨?_, ?_, ?_⟩
  · have announces : ((Command.deleteNode "b").announced? (gathered.member 0)).map
        (fun operation => operation.node.id) = some "b" := by decide +kernel
    obtain ⟨operation, announced, id⟩ := Option.map_eq_some_iff.mp announces
    have away : ∀ peer ∈ gathered.peers 0, ¬ gathered.Reaches peer 0 := by decide +kernel
    have succeeds : halt? ((perform 0 (.deleteNode "b")).run.run gathered).1 = none := by
      decide +kernel
    rcases requested gathered 0 _ operation announced away with
      ⟨answer, after, run, spread⟩ | ⟨error, _, _, _, run, _⟩
    · exact ⟨operation, answer, after, id, run, spread⟩
    · rw [run] at succeeds
      cases succeeds
  · have announces : ((Command.deleteNode "b").announced? (parted.member 0)).map
        (fun operation => operation.node.id) = some "b" := by decide +kernel
    obtain ⟨operation, announced, id⟩ := Option.map_eq_some_iff.mp announces
    have away : ∀ peer ∈ parted.peers 0, ¬ parted.Reaches peer 0 := by decide +kernel
    have listed : parted.peers 0 = ["127.0.0.1:32769", "127.0.0.1:32770", "127.0.0.1:32771"] := by
      decide +kernel
    have ends : let run := (perform 0 (.deleteNode "b")).run.run parted
        halt? run.1 = some (.failed (.peerUnreachable "127.0.0.1:32770")) ∧
          (run.2.member 1).nodes.map Node.id = ["a", "c", "d"] ∧
          (run.2.member 3).nodes.map Node.id = ["a", "b", "c", "d"] := by decide +kernel
    rcases requested parted 0 (.deleteNode "b") operation announced away with
      ⟨_, _, run, _⟩ | ⟨error, contacted, peer, after, run, failed, _, spread⟩
    · rw [run] at ends
      cases ends.1
    · rw [run] at ends
      obtain ⟨fails, registries⟩ := ends
      cases halt?_eq_some.mp fails
      obtain rfl : "127.0.0.1:32770" = peer := failed
      have only : contacted = ["127.0.0.1:32769"] := by
        obtain ⟨later, first⟩ := spread.contacted_first
        change contacted ++ [_] ++ later = parted.peers 0 at first
        rw [listed] at first
        rcases contacted with _ | ⟨early, _ | ⟨second, _ | ⟨third, more⟩⟩⟩
        · simp at first
        · rw [(List.cons.inj first).1]
        · simp at first
        · simp at first
      subst only
      exact ⟨operation, after, id, run, spread, registries⟩
  · have read : (NodeOperation.codec.ofBytes request.body).toOption.map
        (fun operation => (operation.kind, operation.node.id)) = some (.delete, "b") := by
      decide +kernel
    have queried : Percent.formValue? request.target.query "propagate" = some (some "0") := by
      decide +kernel
    have short : request.body.size ≤ Http.maxBody := by decide +kernel
    cases decoded : NodeOperation.codec.ofBytes request.body with
    | error fault =>
      rw [decoded] at read
      cases read
    | ok operation =>
      rw [decoded] at read
      obtain ⟨kind, id⟩ := Prod.mk.inj (Option.some.inj read)
      exact ⟨operation, kind, id, (received parted 0 operation).2 request rfl rfl short
        ⟨decoded, some "0", queried, by decide⟩⟩

end World

end SwarmManager
