import SwarmManager.Daemon
import SwarmManager.Proofs.History
import SwarmManager.Proofs.Listeners
import SwarmManager.Proofs.Start

/-!
# In a swarm or outside

A member that is in a swarm has a swarm, an identifier there and one endpoint on which it
listens; a member outside has none of the three and lists no nodes (`World.Orderly`).  Four
fields are set and cleared separately, and an endpoint is opened before it is known whether a
swarm can be joined, but no request leaves the member in between, as long as the requests to it
come to their end and it is sent operations only while it listens (`Event.Regular`).

The main statement is `orderly_in_every_run`, with what follows: a swarm that is started has
one node, the leader; leaving fails only outside; and outside everything about nodes, services
and tasks is refused.
-/

namespace SwarmManager

set_option autoImplicit false

variable {n : Nat}

namespace World

/-! ## Members in order -/

/-- A member is in a swarm, with an identifier, and listens on one endpoint, or it is outside
any swarm, without all that and without nodes. -/
structure Orderly (world : World n) (index : Fin n) : Prop where
  nodeId_isSome : (world.member index).nodeId.isSome = (world.member index).swarm.isSome
  listener_isSome : (world.member index).listener.isSome = (world.member index).swarm.isSome
  nodes_eq : (world.member index).swarm = none → (world.member index).nodes = []
  endpoints_eq : world.endpointsOf index = (world.member index).listener.toList

namespace Orderly

variable {world after opened : World n} {index : Fin n}

/-- A member outside any swarm does not listen. -/
theorem not_listens (orderly : world.Orderly index)
    (outside : (world.member index).swarm = none) : ¬ world.Listens index := by
  have closed := orderly.listener_isSome
  rw [outside, Option.isSome_none, Option.isSome_eq_false_iff, Option.isNone_iff_eq_none] at closed
  exact World.not_listens (by rw [orderly.endpoints_eq, closed]; rfl)

/-- A member that has an endpoint listens there. -/
theorem listens (orderly : world.Orderly index)
    (listening : (world.member index).listener.isSome) : world.Listens index := by
  obtain ⟨endpoint, listener⟩ := Option.isSome_iff_exists.mp listening
  have listed : endpoint ∈ world.endpointsOf index := by
    rw [orderly.endpoints_eq, listener]
    exact List.mem_singleton_self endpoint
  exact listens_of_mem listed

end Orderly

/-! ## Steps -/

/-- What a request to a member does to the life of another or of the same: nothing, or the
member enters a swarm or leaves it, or it waits in vain for a swarm to join. -/
inductive LifeStep (probe : Fin n) (before : World n) (index : Fin n) :
    Command → Except Halt Answer → World n → Prop
  | undisturbed {command : Command} {outcome : Except Halt Answer} {after : World n}
      (same : Undisturbed probe before after) : LifeStep probe before index command outcome after
  | entered {command : Command} {answer : Answer} {address advertise : String} {isLeader : Bool}
      {endpoint : Endpoint} {node : Node} {opened next : World n}
      (opens : Opens before index address advertise isLeader endpoint node opened)
      (sent : Undisturbed probe opened next) (nodes : List Node) :
      LifeStep probe before index command (.ok answer)
        (next.setMember index ((next.member index).entered endpoint node.id nodes))
  | stuck {command : Command} {address advertise : String} {isLeader : Bool}
      {endpoint : Endpoint} {node : Node} {opened after : World n}
      (opens : Opens before index address advertise isLeader endpoint node opened)
      (sent : Undisturbed probe opened after) :
      LifeStep probe before index command (.error .stalled) after
  | left {command : Command} {answer : Answer} :
      LifeStep probe before index command (.ok answer)
        (({ before with network := before.closing index } : World n).setMember index
          (before.member index).outside)

section Perform

variable {probe index : Fin n} {world : World n}

/-- To refuse a request changes nothing. -/
theorem LifeStep.refused (command : Command) (outcome : Except Halt Answer) :
    LifeStep probe world index command outcome world :=
  .undisturbed (.refl world)

/-- Opening an endpoint disturbs nobody but who opens it. -/
theorem Opens.life {opened : World n} {address advertise : String} {isLeader : Bool}
    {endpoint : Endpoint} {node : Node}
    (opens : Opens world index address advertise isLeader endpoint node opened) (other : Fin n) :
    (opened.member other).swarm = (world.member other).swarm ∧
      (opened.member other).nodeId = (world.member other).nodeId ∧
      (opened.member other).listener = (world.member other).listener := by
  obtain ⟨count, drew⟩ := opens.member_drew other
  rw [drew]
  exact ⟨rfl, rfl, rfl⟩

theorem Opens.listens_iff {opened : World n} {address advertise : String} {isLeader : Bool}
    {endpoint : Endpoint} {node : Node}
    (opens : Opens world index address advertise isLeader endpoint node opened)
    (apart : probe ≠ index) :
    opened.Listens probe ↔ world.Listens probe := by
  have other : Owner.member index ≠ Owner.member probe :=
    fun same => apart (Owner.member.inj same).symm
  simp [Listens, opens.openSockets_eq, or_and_right, exists_or, other]

theorem lifeStep_initCluster (address advertise : String) :
    LifeStep probe world index (.initCluster address advertise)
      ((perform index (.initCluster address advertise)).run.run world).1
      ((perform index (.initCluster address advertise)).run.run world).2 := by
  simp only [perform, run_answer, run_initCluster]
  cases outside : (world.member index).swarm with
  | some swarm => exact .refused _ _
  | none =>
    cases listened : world.listen index address with
    | error error => exact .refused _ _
    | ok opened =>
      obtain ⟨endpoint, network⟩ := opened
      dsimp only
      generalize described : (world.member index).asNode advertise endpoint true = node
      have opens : Opens world index address advertise true endpoint node
          (world.listening index network) := ⟨outside, ⟨_, listened, rfl⟩, described.symm⟩
      rw [← opens.member_self]
      exact .entered opens (.refl _) _

/-- A member whose peer fails is undisturbed, and so are all others: the endpoint that was
opened is shut again. -/
theorem undisturbed_notJoined {address advertise : String} {isLeader : Bool}
    {endpoint : Endpoint} {node : Node} {opened next : World n}
    (opens : Opens world index address advertise isLeader endpoint node opened)
    (sent : Undisturbed probe opened next) (intact : Intact index opened next) :
    Undisturbed probe world { next with network := next.network.shut endpoint } := by
  obtain ⟨swarm, nodeId, _⟩ := opens.life probe
  refine ⟨sent.swarm.trans swarm, sent.nodeId.trans nodeId, fun deaf => ?_, fun other => ?_,
    opens.openSockets_shut intact.openSockets_eq⟩
  · by_cases here : probe = index
    · subst here
      obtain ⟨count, drew⟩ := intact.member_eq
      change (next.member probe).nodes = _
      rw [drew, ← opens.nodes_eq probe]
      rfl
    · exact (sent.nodes ((opens.listens_iff here).not.mpr deaf)).trans (opens.nodes_eq probe)
  · exact (sent.listener other).trans (opens.life other).2.2

theorem lifeStep_joinCluster (remotes : List String) (address advertise : String) :
    LifeStep probe world index (.joinCluster remotes address advertise)
      ((perform index (.joinCluster remotes address advertise)).run.run world).1
      ((perform index (.joinCluster remotes address advertise)).run.run world).2 := by
  simp only [perform, run_bind, run_joinCluster]
  cases outside : (world.member index).swarm with
  | some swarm => exact .refused _ _
  | none =>
    cases remotes with
    | nil => exact .refused _ _
    | cons remote rest =>
      cases listened : world.listen index address with
      | error error => exact .refused _ _
      | ok pair =>
        obtain ⟨endpoint, network⟩ := pair
        dsimp only
        generalize described : (world.member index).asNode advertise endpoint false = node
        have opens : Opens world index address advertise false endpoint node
            (world.listening index network) := ⟨outside, ⟨_, listened, rfl⟩, described.symm⟩
        generalize world.listening index network = opened at opens
        have intact := keeps_send (overlooks_intact index) ne_of_waiting remote (.add node)
          .propagate opened
        have sent := keeps_send_heard probe (some index) remote (.add node) .propagate opened
        rcases run : (send (some index) remote (.add node) .propagate).run.run opened with
          ⟨(error | _) | nodes, next⟩ <;> rw [run] at sent intact
        · exact .undisturbed (undisturbed_notJoined opens sent intact)
        · exact .stuck opens sent
        · exact .entered opens sent nodes

/-- Whoever finds a node is in a swarm. -/
theorem isSome_swarm_of_inspectNode {member : Member} {id : String} {node : Node}
    (found : member.inspectNode id = .ok node) : member.swarm.isSome := by
  cases inside : member.swarm with
  | none =>
    simp only [Member.inspectNode, Member.inspectSwarm, inside] at found
    cases found
  | some swarm => rfl

/-- A node that is found may be changed, since the member is in a swarm. -/
theorem undisturbed_announced (operation : NodeOperation) {after : World n}
    (same : SameMembership world after) (heard : index = probe → world.Listens probe) :
    Undisturbed probe world ((spread index operation).run.run after).2 := by
  have before : Undisturbed probe world after := .of_sameMembership same
  refine before.trans _ _ _ (undisturbed_spread (fun here => ?_) operation)
  exact (before.listens_iff probe).mpr (heard here)

/-- What a request does to the life of a member that listens whenever it is in a swarm or is
sent an operation. -/
theorem lifeStep_perform {command : Command}
    (inSwarm : index = probe → (world.member index).swarm.isSome → world.Listens probe)
    (served : index = probe → Http.isForPeers command = true → world.Listens probe) :
    LifeStep probe world index command ((perform index command).run.run world).1
      ((perform index command).run.run world).2 := by
  cases quiet : command.isAboutNodes with
  | false => exact .undisturbed (.of_sameMembership (.perform world index quiet))
  | true =>
    cases command with
    | initCluster address advertise => exact lifeStep_initCluster address advertise
    | joinCluster remotes address advertise => exact lifeStep_joinCluster remotes address advertise
    | leaveCluster =>
      simp only [perform, run_bind, run_leaveCluster]
      by_cases inside : (world.member index).swarm.isSome
      · rw [if_pos inside]
        exact .left
      · rw [if_neg inside]
        exact .refused _ _
    | updateNode id spec =>
      simp only [perform, run_answer, run_updateNode]
      cases found : (world.member index).inspectNode id with
      | error error => exact .refused _ _
      | ok node =>
        have heard := fun here => inSwarm here (isSome_swarm_of_inspectNode found)
        have spread := undisturbed_announced
          (.update (node.withSpec spec (world.member index).supply.next.instant))
          (.setMember world index (.drew (world.member index) 1)) heard
        revert spread
        dsimp only
        rcases (World.spread index _).run.run _ with ⟨halt | _, next⟩ <;> exact .undisturbed
    | deleteNode id =>
      simp only [perform, run_bind, run_deleteNode]
      cases found : (world.member index).inspectNode id with
      | error error => exact .refused _ _
      | ok node =>
        have heard := fun here => inSwarm here (isSome_swarm_of_inspectNode found)
        have spread := undisturbed_announced (.delete node) (.refl world) heard
        revert spread
        dsimp only
        rcases (World.spread index _).run.run _ with ⟨halt | _, next⟩ <;> exact .undisturbed
    | handleOperation operation delivery =>
      simp only [perform, run_answer]
      exact .undisturbed (servesHeard_handle none operation world index delivery
        fun here => served here rfl)
    | _ => exact absurd quiet (by simp [Command.isAboutNodes])

end Perform

section Endpoints

variable {before after : World n} {probe index : Fin n}

/-- A member that listens on one more endpoint has one more. -/
theorem endpointsOf_append {endpoint : Endpoint}
    (sockets : after.network.openSockets =
      before.network.openSockets ++ [⟨endpoint, .member index, true⟩]) :
    after.endpointsOf probe =
      before.endpointsOf probe ++ if index = probe then [endpoint] else [] := by
  rw [endpointsOf, sockets, List.filter_append, List.map_append, endpointsOf]
  by_cases here : index = probe
  · simp [here]
  · have apart : Owner.member index ≠ Owner.member probe := fun same => here (Owner.member.inj same)
    simp [here, apart]

/-- Who leaves takes no endpoint of another member. -/
theorem endpointsOf_left (bound : before.Bound) (apart : probe ≠ index)
    (sockets : after.network.openSockets = (before.closing index).openSockets) :
    after.endpointsOf probe = before.endpointsOf probe := by
  rw [endpointsOf, sockets, openSockets_closing, List.filter_filter, endpointsOf]
  refine congrArg (List.map Socket.endpoint) (List.filter_congr fun socket present => ?_)
  by_cases owned : socket.owner = .member probe
  · have other : socket.owner ≠ .member index :=
      fun same => apart (Owner.member.inj (owned.symm.trans same))
    simp [owned, bound.endpoint_ne present other]
  · simp [owned]

/-- Who leaves gives up the endpoint it had. -/
theorem endpointsOf_left_self
    (one : before.endpointsOf index = (before.member index).listener.toList)
    (sockets : after.network.openSockets = (before.closing index).openSockets) :
    after.endpointsOf index = [] := by
  rw [endpointsOf, sockets, openSockets_closing, List.filter_filter, List.map_eq_nil_iff,
    List.filter_eq_nil_iff]
  intro socket present both
  obtain ⟨owned, kept⟩ := Bool.and_eq_true_iff.mp both
  have listed : socket.endpoint ∈ before.endpointsOf index :=
    List.mem_map_of_mem (List.mem_filter.mpr ⟨present, owned⟩)
  rw [one, Option.mem_toList] at listed
  exact of_decide_eq_true kept listed

end Endpoints

namespace Orderly

variable {before after : World n} {probe index : Fin n}

theorem of_undisturbed (orderly : before.Orderly probe)
    (same : Undisturbed probe before after) : after.Orderly probe where
  nodeId_isSome := by rw [same.nodeId, same.swarm, orderly.nodeId_isSome]
  listener_isSome := by rw [same.listener, same.swarm, orderly.listener_isSome]
  nodes_eq outside := by
    rw [same.swarm] at outside
    rw [same.nodes (orderly.not_listens outside), orderly.nodes_eq outside]
  endpoints_eq := by
    rw [same.listener, ← orderly.endpoints_eq, endpointsOf, same.openSockets_eq, endpointsOf]

/-- A member that did not open the endpoint is as before. -/
theorem opened_by_other (orderly : before.Orderly probe) (apart : probe ≠ index)
    {opened : World n} {address advertise : String} {isLeader : Bool} {endpoint : Endpoint}
    {node : Node} (opens : Opens before index address advertise isLeader endpoint node opened)
    (sent : Undisturbed probe opened after) : after.Orderly probe := by
  refine Orderly.of_undisturbed ?_ sent
  obtain ⟨swarm, nodeId, listener⟩ := opens.life probe
  refine ⟨?_, ?_, fun outside => ?_, ?_⟩
  · rw [nodeId, swarm, orderly.nodeId_isSome]
  · rw [listener, swarm, orderly.listener_isSome]
  · rw [opens.nodes_eq, orderly.nodes_eq (swarm ▸ outside)]
  · rw [endpointsOf_append opens.openSockets_eq, if_neg (Ne.symm apart), List.append_nil,
      orderly.endpoints_eq, listener]

/-- A member is in order as long as nothing happens to it and to its endpoints. -/
theorem of_member_eq (orderly : before.Orderly probe)
    (same : after.member probe = before.member probe)
    (endpoints : after.endpointsOf probe = before.endpointsOf probe) : after.Orderly probe where
  nodeId_isSome := by rw [same, orderly.nodeId_isSome]
  listener_isSome := by rw [same, orderly.listener_isSome]
  nodes_eq outside := by
    rw [same] at outside ⊢
    exact orderly.nodes_eq outside
  endpoints_eq := by rw [endpoints, same, orderly.endpoints_eq]

/-- A member that enters a swarm listens on the endpoint it opened, and on no other, since it
was outside before. -/
theorem entered (orderly : before.Orderly probe) {opened next : World n}
    {address advertise : String} {isLeader : Bool} {endpoint : Endpoint} {node : Node}
    (opens : Opens before probe address advertise isLeader endpoint node opened)
    (sent : Undisturbed probe opened next) (nodes : List Node) :
    (next.setMember probe ((next.member probe).entered endpoint node.id nodes)).Orderly probe := by
  have closed : before.endpointsOf probe = [] := by
    have none := orderly.listener_isSome
    rw [opens.outside, Option.isSome_none, Option.isSome_eq_false_iff,
      Option.isNone_iff_eq_none] at none
    rw [orderly.endpoints_eq, none]
    rfl
  have sockets : (next.setMember probe ((next.member probe).entered endpoint node.id
      nodes)).network.openSockets = _ := sent.openSockets_eq.trans opens.openSockets_eq
  refine ⟨?_, ?_, fun outside => ?_, ?_⟩
  · rw [member_setMember_self]
    rfl
  · rw [member_setMember_self]
    rfl
  · rw [member_setMember_self] at outside
    cases outside
  · rw [endpointsOf_append sockets, closed, if_pos rfl, member_setMember_self]
    rfl

/-- A member that leaves its swarm is outside, and gave up its endpoint; for another member its
leaving is no matter. -/
theorem left (bound : before.Bound) (orderly : before.Orderly probe) (index : Fin n) :
    (({ before with network := before.closing index } : World n).setMember index
      (before.member index).outside).Orderly probe := by
  by_cases here : probe = index
  · subst here
    refine ⟨?_, ?_, fun _ => ?_, ?_⟩ <;> rw [member_setMember_self]
    · rfl
    · rfl
    · rfl
    · rw [endpointsOf_left_self orderly.endpoints_eq rfl]
      rfl
  · exact orderly.of_member_eq (member_setMember_of_ne _ here _) (endpointsOf_left bound here rfl)

/-- What a request does to the life of a member leaves it in order, if the member does not wait
for ever. -/
theorem step (bound : before.Bound) (orderly : before.Orderly probe) {command : Command}
    {outcome : Except Halt Answer} (step : LifeStep probe before index command outcome after)
    (ends : index = probe → outcome ≠ .error .stalled) : after.Bound ∧ after.Orderly probe := by
  cases step with
  | undisturbed same => exact ⟨bound.of_undisturbed same, orderly.of_undisturbed same⟩
  | @entered answer address advertise isLeader endpoint node opened next opens sent nodes =>
    constructor
    · refine bound.opened_by opens sent.openSockets_eq fun other => ?_
      by_cases here : other = index
      · refine .inr ⟨here, ?_⟩
        rw [here, member_setMember_self]
        rfl
      · refine .inl ?_
        rw [member_setMember_of_ne _ here, sent.listener, (opens.life other).2.2]
    · by_cases here : probe = index
      · subst here
        exact orderly.entered opens sent nodes
      · exact (orderly.opened_by_other here opens sent).of_member_eq
          (member_setMember_of_ne _ here _) rfl
  | stuck opens sent =>
    have apart : probe ≠ index := fun here => ends here.symm rfl
    refine ⟨bound.opened_by opens sent.openSockets_eq fun other => .inl ?_,
      orderly.opened_by_other apart opens sent⟩
    rw [sent.listener, (opens.life other).2.2]
  | left => exact ⟨bound.left index, orderly.left bound index⟩

/-- When the network settles, nobody stops listening. -/
theorem settle (bound : before.Bound) (orderly : before.Orderly probe) (earlier : Network n) :
    ({ before with network := before.network.settle earlier } : World n).Bound ∧
      ({ before with network := before.network.settle earlier } : World n).Orderly probe := by
  have same : Undisturbed probe before
      { before with network := before.network.settle earlier } :=
    ⟨rfl, rfl, fun _ => rfl, fun _ => rfl, Network.openSockets_settle _ _⟩
  exact ⟨bound.of_undisturbed same, orderly.of_undisturbed same⟩

end Orderly

end World

/-! ## Runs -/

/-- A request to a member comes to its end, and is an operation of a peer only while the member
listens. -/
structure Event.Regular (event : Event n) (index : Fin n) : Prop where
  ends : event.index = index → World.halt? event.outcome ≠ some .stalled
  listens : event.index = index → Http.isForPeers event.command = true →
    (event.world.member index).listener.isSome

instance (event : Event n) (index : Fin n) : Decidable (event.Regular index) :=
  decidable_of_iff
    ((event.index = index → World.halt? event.outcome ≠ some .stalled) ∧
      (event.index = index → Http.isForPeers event.command = true →
        (event.world.member index).listener.isSome))
    ⟨fun both => ⟨both.1, both.2⟩, fun regular => ⟨regular.ends, regular.listens⟩⟩

namespace World

/-- A regular request leaves a member in order. -/
theorem Orderly.next (event : Event n) {index : Fin n} (bound : event.world.Bound)
    (orderly : event.world.Orderly index) (regular : event.Regular index) :
    (event.world.step (perform event.index event.command)).2.Bound ∧
      (event.world.step (perform event.index event.command)).2.Orderly index := by
  have performed : LifeStep index event.world event.index event.command event.outcome
      ((perform event.index event.command).run.run event.world).2 := by
    refine lifeStep_perform (fun here inside => ?_) fun here asked => ?_
    · exact orderly.listens (by rw [orderly.listener_isSome, ← here, inside])
    · exact orderly.listens (regular.listens here asked)
  have ends : event.index = index → event.outcome ≠ .error .stalled :=
    fun here => halt?_eq_some.not.mp (regular.ends here)
  obtain ⟨boundNext, orderlyNext⟩ := orderly.step bound performed ends
  exact orderlyNext.settle boundNext event.world.network

theorem Orderly.after {world : World n} {index : Fin n} (bound : world.Bound)
    (orderly : world.Orderly index) (requests : List (Fin n × Command))
    (regular : ∀ event ∈ world.history requests, event.Regular index) :
    (world.after requests).Bound ∧ (world.after requests).Orderly index := by
  induction requests generalizing world with
  | nil => exact ⟨bound, orderly⟩
  | cons request rest ih =>
    have first : Event.Regular ⟨world, request.1, request.2⟩ index :=
      regular _ List.mem_cons_self
    obtain ⟨boundNext, orderlyNext⟩ :=
      Orderly.next ⟨world, request.1, request.2⟩ bound orderly first
    exact ih boundNext orderlyNext fun event later => regular event (List.mem_cons_of_mem _ later)

/-- Nobody listens for a member at the start. -/
theorem orderly_start (settings : Fin n → Settings) (machine : Fin n → Machine)
    (observer : Fin n → Observer) (supply : Fin n → Supply) {network : Network n} {index : Fin n}
    (unowned : ∀ socket ∈ network.sockets, socket.owner ≠ .member index) :
    (start settings machine observer supply network).Bound ∧
      (start settings machine observer supply network).Orderly index := by
  refine ⟨⟨fun other endpoint listens => ?_, fun other endpoint listens => ?_⟩, ?_⟩
  · rw [member_start] at listens
    cases listens
  · rw [member_start] at listens
    cases listens
  · refine ⟨?_, ?_, fun _ => ?_, ?_⟩
    · rw [member_start]
      rfl
    · rw [member_start]
      rfl
    · rw [member_start]
      rfl
    · rw [member_start]
      change _ = []
      rw [endpointsOf, List.map_eq_nil_iff, List.filter_eq_nil_iff]
      intro socket present owned
      exact unowned socket (List.mem_of_mem_filter present) (of_decide_eq_true owned)

/-! ## What follows -/

section Consequences

variable {world : World n} {index : Fin n} (orderly : world.Orderly index)
include orderly

/-- A swarm that is started has one node, which leads it and has the identifier that is
answered. -/
theorem Orderly.nodes_initCluster {listen advertise : String} {answer : Answer}
    (done : (world.step (perform index (.initCluster listen advertise))).1 = .ok answer) :
    ∃ node : Node, answer = .identifier node.id ∧ node.isLeader = true ∧
      ((world.step (perform index (.initCluster listen advertise))).2.member index).nodes =
        [node] := by
  rw [member_step]
  simp only [World.step, perform, run_answer, run_initCluster] at done ⊢
  cases outside : (world.member index).swarm with
  | some swarm =>
    simp only [outside, Option.isSome_some, ↓reduceIte] at done
    cases done
  | none =>
    simp only [outside, Option.isSome_none, Bool.false_eq_true, ↓reduceIte] at done ⊢
    cases listened : world.listen index listen with
    | error error =>
      rw [listened] at done
      cases done
    | ok opened =>
      simp only [listened] at done ⊢
      obtain rfl := Except.ok.inj done
      refine ⟨(world.member index).asNode advertise opened.1 true, rfl, rfl, ?_⟩
      rw [member_setMember_self]
      change (world.member index).nodes ++ _ = _
      rw [orderly.nodes_eq outside, List.nil_append]

/-- Leaving fails exactly outside. -/
theorem Orderly.outcome_leaveCluster :
    (world.step (perform index .leaveCluster)).1 =
      if (world.member index).nodeId.isSome then .ok .done
      else .error (.failed .notInSwarm) := by
  simp only [World.step, perform, run_bind, run_leaveCluster, orderly.nodeId_isSome]
  by_cases inside : (world.member index).swarm.isSome
  · rw [if_pos inside, if_pos inside]
    rfl
  · rw [if_neg inside, if_neg inside]

end Consequences

/-- A daemon stops without failing if its member is in order. -/
theorem outcome_stop {lone : World 1}
    (same : (lone.member 0).nodeId.isSome = (lone.member 0).swarm.isSome) :
    (Daemon.stop.run.run lone).1 = .ok ⟨⟩ := by
  simp only [Daemon.stop, run_bind, run_look]
  split
  next inside =>
    rw [run_leaveCluster, if_pos (same ▸ inside)]
  next => rfl

end World

/-- Whether a request is about the swarm that a member is in, its nodes, services and tasks,
and comes from a client. -/
def Command.needsSwarm : Command → Bool
  | .leaveCluster | .inspectSwarm | .updateNode _ _ | .deleteNode _ | .inspectNode _ | .listNodes
  | .createService _ | .updateService _ _ | .deleteService _ | .inspectService _
  | .listServices _ | .inspectTask _ | .listTasks _ => true
  | _ => false

namespace World

section Outside

variable {world : World n} {index : Fin n}

/-- What is found nowhere outside a swarm is not found. -/
theorem outcome_lookUp {α : Type} {view : Member → Except Error α} {shown : α → Answer}
    (refused : view (world.member index) = .error .notInSwarm) :
    (world.step (do return shown (← found (view (← look index))) : Action n Answer)).1 =
      .error (.failed .notInSwarm) := by
  rw [outcome_view, refused]
  rfl

/-- What a member does nothing about outside a swarm fails. -/
theorem outcome_act {α : Type} {action : Member.Action α} {shown : α → Answer}
    (refused : (action.run.run (world.member index)).1 = .error .notInSwarm) :
    (world.step (do return shown (← act index action) : Action n Answer)).1 =
      .error (.failed .notInSwarm) := by
  rcases run : action.run.run (world.member index) with ⟨result, after⟩
  rw [run] at refused
  obtain rfl : result = .error .notInSwarm := refused
  exact (step_act shown run).1

/-- Outside any swarm whatever needs one is refused. -/
theorem outcome_outside (outside : (world.member index).swarm = none) {command : Command}
    (needs : command.needsSwarm = true) :
    (world.step (perform index command)).1 = .error (.failed .notInSwarm) := by
  have refused : (world.member index).inspectSwarm = .error .notInSwarm := by
    rw [Member.inspectSwarm, outside]
  have unknown (id : String) : (world.member index).inspectNode id = .error .notInSwarm := by
    rw [Member.inspectNode, refused]
    rfl
  cases command with
  | leaveCluster =>
    simp only [step, perform, run_bind, run_leaveCluster, outside]
    rfl
  | updateNode id spec =>
    simp only [step, perform, run_answer, run_updateNode, unknown]
    rfl
  | deleteNode id =>
    simp only [step, perform, run_bind, run_deleteNode, unknown]
  | inspectSwarm => exact outcome_lookUp refused
  | inspectNode id => exact outcome_lookUp (unknown id)
  | listNodes => exact outcome_lookUp (by rw [Member.listNodes, refused]; rfl)
  | inspectService asked => exact outcome_lookUp (by rw [Member.inspectService, refused]; rfl)
  | listServices filters => exact outcome_lookUp (by rw [Member.listServices, refused]; rfl)
  | inspectTask id => exact outcome_lookUp (by rw [Member.inspectTask, refused]; rfl)
  | listTasks filters => exact outcome_lookUp (by rw [Member.listTasks, refused]; rfl)
  | createService spec =>
    refine outcome_act ?_
    simp only [Member.createService, run_bind, run_get, run_liftM, refused]
  | updateService asked spec =>
    refine outcome_act ?_
    simp only [Member.updateService, run_bind, run_get, run_liftM, refused]
  | deleteService asked =>
    have failed : ((Member.deleteService asked).run.run (world.member index)).1 =
        .error .notInSwarm := by
      simp only [Member.deleteService, run_bind, run_get, run_liftM, refused]
    exact outcome_act failed
  | _ => exact absurd needs (by simp [Command.needsSwarm])

end Outside

end World

/-- **A member is in a swarm or outside.**  In every run from the start, with requests to the
member that come to their end and operations of peers only while it listens, the member has a
swarm, an identifier and one endpoint on which it listens, or none of these and no nodes.  So
whenever it starts a swarm, that swarm has one node, which leads it and has the identifier that
is answered; leaving fails exactly without an identifier, and a daemon that stops never fails;
and outside any swarm everything about nodes, services and tasks is refused. -/
theorem orderly_in_every_run (settings : Fin n → Settings) (machine : Fin n → Machine)
    (observer : Fin n → Observer) (supply : Fin n → Supply) (network : Network n) (index : Fin n)
    (unowned : ∀ socket ∈ network.sockets, socket.owner ≠ .member index)
    (requests : List (Fin n × Command))
    (regular : ∀ event ∈ (World.start settings machine observer supply network).history requests,
      event.Regular index) :
    let world := (World.start settings machine observer supply network).after requests
    let member := world.member index
    world.Orderly index ∧
    (∀ listen advertise answer,
      (world.step (World.perform index (.initCluster listen advertise))).1 = .ok answer →
      ∃ node : Node, answer = .identifier node.id ∧ node.isLeader = true ∧
        ((world.step (World.perform index (.initCluster listen advertise))).2.member index).nodes =
          [node]) ∧
    (world.step (World.perform index .leaveCluster)).1 =
      (if member.nodeId.isSome then .ok .done else .error (.failed .notInSwarm)) ∧
    (∀ lone : World 1, lone.member 0 = member → (Daemon.stop.run.run lone).1 = .ok ⟨⟩) ∧
    (member.swarm = none → ∀ command : Command, command.needsSwarm = true →
      (world.step (World.perform index command)).1 = .error (.failed .notInSwarm)) := by
  intro world member
  obtain ⟨bound, orderlyStart⟩ :=
    World.orderly_start settings machine observer supply unowned
  obtain ⟨_, orderly⟩ := orderlyStart.after bound requests regular
  refine ⟨orderly, ?_, orderly.outcome_leaveCluster, ?_, ?_⟩
  · intro listen advertise answer done
    exact orderly.nodes_initCluster done
  · intro lone same
    exact World.outcome_stop (by rw [same]; exact orderly.nodeId_isSome)
  · intro outside command needs
    exact World.outcome_outside outside needs

theorem orderly_in_every_run_secondAttempt :
    let world := World.twoMembers.after World.secondAttempt
    (world.member 1).swarm = none ∧ world.Orderly 1 ∧
      (world.step (World.perform 1 .leaveCluster)).1 = .error (.failed .notInSwarm) ∧
      (world.step (World.perform 1 (.createService {}))).1 = .error (.failed .notInSwarm) ∧
      ∃ node : Node, node.isLeader = true ∧
        ((world.step (World.perform 1 (.initCluster "" ""))).2.member 1).nodes = [node] := by
  have outside : ((World.twoMembers.after World.secondAttempt).member 1).swarm = none := by
    decide +kernel
  have started : World.halt? ((World.twoMembers.after World.secondAttempt).step
      (World.perform 1 (.initCluster "" ""))).1 = none := by
    decide +kernel
  obtain ⟨orderly, alone, leaves, _, refused⟩ :=
    orderly_in_every_run (fun _ => {}) (fun _ => default) (fun _ => .listening)
      (fun index : Fin 2 => .tally (if index = 0 then 'a' else 'b')) .idle 1
      (fun _ nobody => absurd nobody List.not_mem_nil) World.secondAttempt (by decide +kernel)
  refine ⟨outside, orderly, refused outside _ rfl, refused outside _ rfl, ?_⟩
  rcases ended : ((World.twoMembers.after World.secondAttempt).step
    (World.perform 1 (.initCluster "" ""))).1 with halt | answer
  · rw [ended] at started
    cases started
  · obtain ⟨node, _, leads, nodes⟩ := alone "" "" answer ended
    exact ⟨node, leads, nodes⟩

end SwarmManager
