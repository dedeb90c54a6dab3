import SwarmManager.Proofs.Entries
import SwarmManager.Proofs.Registry
import SwarmManager.Proofs.Uniqueness
import Mathlib.Data.Fintype.Basic

/-!
# Swarms that start anew

A member that leaves tells nobody, so the swarm it left may go on sending to where it
listened.  If it starts a swarm there, what the old swarm announces comes to the registry
of the new one.

Nothing else leads from an old swarm into a new one.  Who belongs to the swarm of a founder
is told by the history: those who joined through a member of it and have not left since
(`followers`).  Its entry is known to them alone, and no other entry points to it unless
one did when it started, or a member enters later that advertises its endpoint
(`Isolated`).  So what others announce does not come to it (`new_swarm_isolated`).
-/

namespace SwarmManager

set_option autoImplicit false

variable {n : Nat}

/-! ## Who belongs to a swarm -/

namespace Event

/-- The identifier of the node as which a member has founded a swarm, if a request had it do
so. -/
def founded? (event : Event n) : Option String :=
  match event.command, event.outcome with
  | .initCluster _ _, .ok (.identifier own) => some own
  | _, _ => none

/-- The members that pass on what a request has announced: the one that is asked to change
a node, or the one that is joined through. -/
def carriers (event : Event n) : Finset (Fin n) :=
  match event.command with
  | .joinCluster remotes _ _ =>
      {through | ∃ remote ∈ remotes.head?, event.world.Reaches remote through}
  | .updateNode _ _ | .deleteNode _ => {event.index}
  | _ => ∅

/-- Who belongs to a swarm after a request, given who did before: who joins through one of
them does, and who leaves does not. -/
def followers (event : Event n) (earlier : Finset (Fin n)) : Finset (Fin n) :=
  match event.command, event.outcome with
  | .joinCluster _ _ _, .ok _ =>
      if Disjoint event.carriers earlier then earlier else insert event.index earlier
  | .leaveCluster, .ok _ => earlier.erase event.index
  | _, _ => earlier

end Event

namespace World

/-- Who belongs to the swarm of a founder after a run. -/
def followers (world : World n) (founder : Fin n) (requests : List (Fin n × Command)) :
    Finset (Fin n) :=
  (world.history requests).foldl (fun earlier event => event.followers earlier) {founder}

theorem followers_append (world : World n) (founder : Fin n)
    (requests : List (Fin n × Command)) (request : Fin n × Command) :
    world.followers founder (requests ++ [request]) =
      (Event.mk (world.after requests) request.1 request.2).followers
        (world.followers founder requests) := by
  simp only [followers, history_append, List.foldl_append, List.foldl_cons, List.foldl_nil]

end World

/-! ## Carriers and followers -/

section Carriers

variable {world : World n} {index : Fin n}

theorem Event.mem_carriers_join {remote : String} {rest : List String} {listen advertise : String}
    {through : Fin n} :
    through ∈ (Event.mk world index (.joinCluster (remote :: rest) listen advertise)).carriers ↔
      world.Reaches remote through := by
  simp [carriers]

/-- Who is asked to change a node announces it. -/
theorem Event.mem_carriers_announced {command : Command} {operation : NodeOperation}
    {member : Member} (client : Http.isForPeers command = false)
    (announced : command.announced? member = some operation) :
    index ∈ (Event.mk world index command).carriers := by
  cases command with
  | updateNode id spec => exact Finset.mem_singleton_self index
  | deleteNode id => exact Finset.mem_singleton_self index
  | handleOperation asked delivery => exact absurd client (by simp [Http.isForPeers])
  | _ => cases announced

theorem Event.founded?_eq_some {event : Event n} {own : String}
    (founded : event.founded? = some own) : ∃ listen advertise,
      event.command = .initCluster listen advertise ∧ event.outcome = .ok (.identifier own) := by
  unfold founded? at founded
  split at founded
  next listen advertise own asked done =>
    obtain rfl := Option.some.inj founded
    exact ⟨listen, advertise, asked, done⟩
  next => cases founded

/-- Who joins through a member of a swarm belongs to it. -/
theorem Event.mem_followers_joined {remotes : List String} {listen advertise : String}
    {answer : Answer} {earlier : Finset (Fin n)} {through : Fin n}
    (done : (Event.mk world index (.joinCluster remotes listen advertise)).outcome = .ok answer)
    (carries : through ∈ (Event.mk world index (.joinCluster remotes listen advertise)).carriers)
    (belongs : through ∈ earlier) :
    index ∈ (Event.mk world index (.joinCluster remotes listen advertise)).followers earlier := by
  have met : ¬ Disjoint (Event.mk world index (.joinCluster remotes listen advertise)).carriers
      earlier := fun apart => Finset.disjoint_left.mp apart carries belongs
  simp only [followers, done]
  rw [if_neg met]
  exact Finset.mem_insert_self index earlier

/-- Only a member that leaves does not belong to a swarm any more. -/
theorem Event.mem_followers {event : Event n} {earlier : Finset (Fin n)} {other : Fin n}
    (belongs : other ∈ earlier) (stays : event.index = other → event.command = .leaveCluster →
      ∃ halt, event.outcome = .error halt) : other ∈ event.followers earlier := by
  unfold followers
  split
  · split
    · exact belongs
    · exact Finset.mem_insert_of_mem belongs
  next left done =>
    refine Finset.mem_erase.mpr ⟨fun here => ?_, belongs⟩
    obtain ⟨halt, failed⟩ := stays here.symm left
    cases failed.symm.trans done
  · exact belongs

end Carriers

namespace World

variable {before after opened : World n} {index : Fin n}

/-! ## A founder and its followers -/

/-- A founder is in a swarm of its own.  Its followers, among them the founder, are all
that know its entry, and no other entry points to it. -/
structure Isolated (world : World n) (founder : Fin n) (own : String)
    (followers : Finset (Fin n)) : Prop where
  traceable : world.Traceable
  used : ∃ owner, (world.member owner).supply.Used own
  inSwarm : (world.member founder).swarm.isSome
  leads : founder ∈ followers
  known : ∀ holder, own ∈ (world.member holder).nodes.map Node.id → holder ∈ followers
  secret : world.AllEntries fun node => node.id = own ∨ ¬ world.PointsTo node founder

namespace Isolated

variable {founder : Fin n} {own : String} {followers : Finset (Fin n)} {command : Command}
  {outcome : Except Halt Answer}

/-- The peers of a member that does not belong to the swarm are not the founder. -/
theorem not_reaches (isolated : before.Isolated founder own followers) {stranger : Fin n}
    (outside : stranger ∉ followers) :
    ∀ peer ∈ before.peers stranger, ¬ before.Reaches peer founder := by
  intro peer listed reaches
  obtain ⟨node, present, _, address⟩ := mem_peersOf.mp listed
  rcases isolated.secret stranger node present with same | hidden
  · exact outside (isolated.known stranger (List.mem_map.mpr ⟨node, present, same⟩))
  · exact hidden ⟨peer, address, reaches.leadsTo⟩

/-- What somebody else joins through a stranger is not sent to the founder. -/
theorem not_reaches_opened (isolated : before.Isolated founder own followers)
    {address advertise remote : String} {isLeader : Bool} {endpoint : Endpoint} {node : Node}
    {stranger : Fin n}
    (opens : Opens before index address advertise isLeader endpoint node opened)
    (reaches : opened.Reaches remote stranger) (apart : stranger ≠ index)
    (outside : stranger ∉ followers) :
    ∀ peer ∈ opened.peers stranger ++ [remote], ¬ opened.Reaches peer founder := by
  intro peer sent
  rcases List.mem_append.mp sent with listed | last
  · rw [peers, opens.member_of_ne apart] at listed
    rw [opens.reaches_iff (opens.ne_of_inSwarm isolated.inSwarm)]
    exact isolated.not_reaches outside peer listed
  · obtain rfl := List.mem_singleton.mp last
    intro here
    have same : stranger = founder := here.unique reaches
    exact outside (same ▸ isolated.leads)

/-- What strangers announce changes nothing at the founder. -/
theorem nodes_eq (isolated : before.Isolated founder own followers)
    (step : RegistryStep before index command outcome after)
    (client : Http.isForPeers command = false)
    (stays : index = founder → command ≠ .leaveCluster)
    (strangers : Disjoint (Event.mk before index command).carriers followers) :
    (after.member founder).nodes = (before.member founder).nodes := by
  have announcing {operation : NodeOperation} {next : World n} {took : List String} {calls : Nat}
      (announced : command.announced? (before.member index) = some operation)
      (delivered : Delivered operation took calls (before.announcing index command) next)
      (first : ∀ peer ∈ took, peer ∈ before.peers index) :
      founder ≠ index ∧ (next.member founder).nodes = (before.member founder).nodes := by
    have outside := Finset.disjoint_left.mp strangers
      (Event.mem_carriers_announced client announced)
    refine ⟨fun here => outside (here ▸ isolated.leads), ?_⟩
    rw [delivered.member_eq_self fun peer sent => ?_, nodes_announcing]
    rw [reaches_congr (reach_announcing before index command peer)]
    exact isolated.not_reaches outside peer (first peer sent)
  cases step with
  | kept same quiet => exact (same.member founder).nodes
  | started opens =>
    have apart := opens.ne_of_inSwarm isolated.inSwarm
    rw [member_setMember_of_ne _ apart, opens.nodes_eq]
  | joined opens reaches apart delivered spared =>
    have outside := Finset.disjoint_left.mp strangers
      (Event.mem_carriers_join.mpr ((opens.reaches_iff apart).mp reaches))
    rw [member_setMember_of_ne _ (opens.ne_of_inSwarm isolated.inSwarm),
      delivered.member_eq_self (isolated.not_reaches_opened opens reaches apart outside),
      opens.nodes_eq]
  | notJoined opens delivered taken spared members system sockets =>
    rw [members, delivered.member_eq_self ?_, opens.nodes_eq]
    intro peer sent
    rcases taken with rfl | ⟨through, reaches, apart, first⟩
    · exact absurd sent List.not_mem_nil
    · have outside := Finset.disjoint_left.mp strangers
        (Event.mem_carriers_join.mpr ((opens.reaches_iff apart).mp reaches))
      exact isolated.not_reaches_opened opens reaches apart outside peer (first.subset sent)
  | left inside => rw [member_setMember_of_ne _ fun here => stays here.symm rfl]; rfl
  | spread announced delivered spared =>
    obtain ⟨apart, same⟩ := announcing announced delivered fun _ => id
    rw [applied, member_setMember_of_ne _ apart, same]
  | notSpread announced delivered first spared =>
    exact (announcing announced delivered fun _ sent => first.subset sent).2

/-- A node that is about to enter is not the founder. -/
theorem id_ne (isolated : before.Isolated founder own followers)
    {address advertise : String} {isLeader : Bool} {endpoint : Endpoint} {node : Node}
    (opens : Opens before index address advertise isLeader endpoint node opened) :
    node.id ≠ own := by
  rw [opens.node_eq]
  exact isolated.traceable.next_ne_of_used index isolated.used

/-- To add a node tells nobody of the founder. -/
theorem mem_ids_added (isolated : before.Isolated founder own followers)
    {address advertise : String} {isLeader : Bool} {endpoint : Endpoint} {node : Node}
    {next : World n} {took : List String} {calls : Nat} {other : Fin n}
    (opens : Opens before index address advertise isLeader endpoint node opened)
    (delivered : Delivered (.add node) took calls opened next)
    (listed : own ∈ (next.member other).nodes.map Node.id) :
    own ∈ (before.member other).nodes.map Node.id := by
  rcases delivered.mem_ids listed with old | ⟨_, same⟩
  · exact opens.nodes_eq other ▸ old
  · exact absurd same.symm (isolated.id_ne opens)

/-- Nor does it to change or remove one. -/
theorem mem_ids_announced {operation : NodeOperation} {next : World n} {took : List String}
    {calls : Nat} {other : Fin n} (client : Http.isForPeers command = false)
    (announced : command.announced? (before.member index) = some operation)
    (delivered : Delivered operation took calls (before.announcing index command) next)
    (listed : own ∈ (next.member other).nodes.map Node.id) :
    own ∈ (before.member other).nodes.map Node.id := by
  rcases delivered.mem_ids listed with old | ⟨adds, _⟩
  · exact nodes_announcing before index command other ▸ old
  · exact absurd adds (command.kind_ne_add client announced)

/-- Who learns of the founder's entry joined through a member that knew it. -/
theorem known_step (isolated : before.Isolated founder own followers)
    (step : RegistryStep before index command outcome after)
    (ended : (Event.mk before index command).outcome = outcome)
    (client : Http.isForPeers command = false) (holder : Fin n)
    (listed : own ∈ (after.member holder).nodes.map Node.id) :
    holder ∈ (Event.mk before index command).followers followers := by
  have still (stays : index = holder → command = .leaveCluster → ∃ halt, outcome = .error halt)
      (listed : own ∈ (before.member holder).nodes.map Node.id) :
      holder ∈ (Event.mk before index command).followers followers :=
    Event.mem_followers (isolated.known holder listed) fun here left => ended ▸ stays here left
  cases step with
  | kept same quiet =>
    rw [(same.member holder).nodes] at listed
    exact still (by rintro _ rfl; exact quiet rfl) listed
  | started opens =>
    refine still (by rintro _ ⟨⟩) ?_
    rw [member_setMember] at listed
    split at listed
    next here =>
      rw [Member.entered, List.map_append] at listed
      rcases List.mem_append.mp listed with old | new
      · exact here ▸ old
      · exact absurd (List.mem_singleton.mp new).symm (isolated.id_ne opens)
    next => exact opens.nodes_eq holder ▸ listed
  | joined opens reaches apart delivered spared =>
    rw [member_setMember] at listed
    split at listed
    next here =>
      rw [here]
      exact Event.mem_followers_joined ended
        (Event.mem_carriers_join.mpr ((opens.reaches_iff apart).mp reaches))
        (isolated.known _ (isolated.mem_ids_added opens delivered listed))
    next => exact still (by rintro _ ⟨⟩) (isolated.mem_ids_added opens delivered listed)
  | notJoined opens delivered taken spared members system sockets =>
    rw [members] at listed
    exact still (by rintro _ ⟨⟩) (isolated.mem_ids_added opens delivered listed)
  | left inside =>
    rw [member_setMember] at listed
    split at listed
    next => exact absurd listed List.not_mem_nil
    next apart => exact still (fun here => absurd here.symm apart) listed
  | spread announced delivered spared =>
    refine still (by rintro _ rfl; cases announced)
      (mem_ids_announced client announced delivered ?_)
    rw [applied, member_setMember] at listed
    split at listed
    next here =>
      rcases NodeOperation.mem_ids_apply listed with old | ⟨adds, _⟩
      · exact here ▸ old
      · exact absurd adds (command.kind_ne_add client announced)
    next => exact listed
  | notSpread announced delivered first spared =>
    exact still (fun _ _ => ⟨_, rfl⟩) (mem_ids_announced client announced delivered listed)

/-- The network may settle. -/
theorem settle (isolated : before.Isolated founder own followers) (earlier : Network n) :
    ({ before with network := before.network.settle earlier } : World n).Isolated founder own
      followers := by
  refine { isolated with traceable := isolated.traceable.settle earlier, secret := ?_ }
  intro holder node listed
  rw [pointsTo_settle]
  exact isolated.secret holder node listed

/-- A founder that does not leave stays isolated, unless a request offers a node that
points to it. -/
theorem registryStep (isolated : before.Isolated founder own followers)
    (step : RegistryStep before index command outcome after)
    (ended : (Event.mk before index command).outcome = outcome)
    (client : Http.isForPeers command = false)
    (stays : index = founder → command ≠ .leaveCluster)
    (elsewhere : ∀ node ∈ (Event.mk before index command).offered?,
      ¬ before.PointsTo node founder) :
    after.Isolated founder own ((Event.mk before index command).followers followers) where
  traceable := isolated.traceable.registryStep step client
  used := (DrawsOn.registryStep step).used isolated.used
  inSwarm := step.swarm_isSome isolated.inSwarm stays
  leads := Event.mem_followers isolated.leads fun here left => absurd left (stays here)
  known := isolated.known_step step ended client
  secret := by
    have hidden : after.AllEntries fun node => node.id = own ∨ ¬ before.PointsTo node founder := by
      refine isolated.secret.registryStep step client ?_ fun node new => .inr (elsewhere node new)
      rintro node other same (own | hidden)
      · exact .inl (same.id_eq.trans own)
      · refine .inr fun points => hidden ?_
        rwa [PointsTo, ← same.peerAddress?_eq]
    intro holder node listed
    exact (hidden holder node listed).imp_right fun hidden points =>
      hidden (step.pointsTo_before isolated.inSwarm points)

end Isolated

/-- A member that starts a swarm is isolated if no other entry points to it. -/
theorem Traceable.isolated (traceable : before.Traceable) {founder : Fin n}
    {listen advertise own : String}
    (step : RegistryStep before founder (.initCluster listen advertise) (.ok (.identifier own))
      after)
    (secret : after.AllEntries fun node => node.id = own ∨ ¬ after.PointsTo node founder) :
    after.Isolated founder own {founder} := by
  have started := traceable.registryStep step rfl
  cases step with
  | kept same quiet =>
    obtain ⟨halt, failed⟩ := quiet rfl
    cases failed
  | started opens =>
    have used := (traceable.opens opens).2
    refine ⟨started, ⟨founder, ?_⟩, ?_, Finset.mem_singleton_self founder, ?_, secret⟩
    · rw [member_setMember_self]
      exact used.ahead 3
    · rw [member_setMember_self]
      rfl
    · intro holder listed
      by_contra apart
      rw [member_setMember_of_ne _ (by simpa using apart), opens.nodes_eq, opens.node_eq] at listed
      exact traceable.next_not_listed founder holder listed
  | spread announced delivered spared => cases announced

end World

/-! ## Runs -/

/-- What a request of a client does. -/
theorem Event.registryStep (event : Event n) (inside : event.world.Inside)
    (client : Http.isForPeers event.command = false) :
    ∃ after, World.RegistryStep event.world event.index event.command event.outcome after ∧
      event.after = { after with network := after.network.settle event.world.network } :=
  World.registryStep_step inside event.index client

namespace World

/-- As long as the founder stays and no node points to it, it stays isolated. -/
theorem Isolated.after {world : World n} {founder : Fin n} {own : String}
    (isolated : world.Isolated founder own {founder}) (requests : List (Fin n × Command))
    (clients : ∀ request ∈ requests, Http.isForPeers request.2 = false)
    (stays : ∀ request ∈ requests, request ≠ (founder, .leaveCluster))
    (elsewhere : ∀ event ∈ world.history requests, ∀ node ∈ event.offered?,
      ¬ event.world.PointsTo node founder) :
    (world.after requests).Isolated founder own (world.followers founder requests) := by
  induction requests using List.reverseRecOn with
  | nil => exact isolated
  | append_singleton requests request ih =>
    rw [history_append] at elsewhere
    have earlier := ih (fun other present => clients other (List.mem_append_left _ present))
      (fun other present => stays other (List.mem_append_left _ present))
      (fun event present => elsewhere event (List.mem_append_left _ present))
    have last := List.mem_append_right requests (List.mem_singleton_self request)
    obtain ⟨after, step, settled⟩ :=
      registryStep_step earlier.traceable.inside request.1 (clients request last)
    rw [after_append, settled, followers_append]
    refine (earlier.registryStep step rfl (clients request last) ?_ ?_).settle _
    · intro here left
      exact stays request last (Prod.ext here left)
    · exact elsewhere _ (List.mem_append_right _ (List.mem_singleton_self _))

variable {settings : Fin n → Settings} {machine : Fin n → Machine} {observer : Fin n → Observer}
  {supply : Fin n → Supply} {network : Network n}

/-- **What strangers do changes nothing in a new swarm.**  After any run of requests of
clients a member starts a swarm, at an endpoint that no other entry points to.  As long as
it does not leave, and no other member enters that advertises this endpoint, no request
that is carried by members that do not belong to the new swarm changes its registry. -/
theorem new_swarm_isolated (apart : Supply.Apart supply) (nobody : network.sockets = [])
    {past later : List (Fin n × Command)} {founding event : Event n}
    {own : String}
    (begun : founding.world = (start settings machine observer supply network).after past)
    (founded : founding.founded? = some own)
    (continued : event.world = founding.after.after later)
    (clients : ∀ request ∈ past ++ later ++ [(event.index, event.command)],
      Http.isForPeers request.2 = false)
    (stays : ∀ request ∈ later ++ [(event.index, event.command)],
      request ≠ (founding.index, .leaveCluster))
    (unknown : founding.after.AllEntries fun node =>
      node.id = own ∨ ¬ founding.after.PointsTo node founding.index)
    (elsewhere : ∀ earlier ∈ founding.after.history later, ∀ node ∈ earlier.offered?,
      ¬ earlier.world.PointsTo node founding.index)
    (strangers : Disjoint event.carriers (founding.after.followers founding.index later)) :
    (event.after.member founding.index).nodes = (event.world.member founding.index).nodes := by
  have pastClients : ∀ request ∈ past, Http.isForPeers request.2 = false := fun request present =>
    clients request (List.mem_append_left _ (List.mem_append_left _ present))
  have laterClients : ∀ request ∈ later, Http.isForPeers request.2 = false := fun request present =>
    clients request (List.mem_append_left _ (List.mem_append_right _ present))
  have laterStays : ∀ request ∈ later, request ≠ (founding.index, .leaveCluster) :=
    fun request present => stays request (List.mem_append_left _ present)
  have last := List.mem_singleton_self (event.index, event.command)
  have traceable : founding.world.Traceable :=
    begun ▸ (traceable_start apart nobody).after past pastClients
  obtain ⟨listen, advertise, asked, done⟩ := Event.founded?_eq_some founded
  obtain ⟨started, step, settled⟩ := founding.registryStep traceable.inside (asked ▸ rfl)
  have fresh : founding.after.Isolated founding.index own {founding.index} := by
    rw [asked, done] at step
    rw [settled] at unknown ⊢
    simp only [pointsTo_settle] at unknown
    exact (traceable.isolated step unknown).settle _
  have isolated := fresh.after later laterClients laterStays elsewhere
  rw [← continued] at isolated
  have client : Http.isForPeers event.command = false := clients _ (List.mem_append_right _ last)
  obtain ⟨after, step, settled⟩ := event.registryStep isolated.traceable.inside client
  have unchanged := isolated.nodes_eq step client
    (fun here left => stays _ (List.mem_append_right _ last) (Prod.ext here left)) strangers
  rw [settled]
  exact unchanged

theorem new_swarm_isolated_sidesTaken :
    let founding : Event 4 := ⟨fourMembers.after removal, 1, .initCluster ":4001" ""⟩
    let event : Event 4 :=
      ⟨founding.after.after sidesTaken, 2, .updateNode "a" { name := "first" }⟩
    founding.after.followers founding.index sidesTaken = {1, 3} ∧ event.carriers = {2} ∧
      (event.world.member founding.index).nodes.map Node.id = ["bbbbb", "d"] ∧
      (event.after.member 0).nodes ≠ (event.world.member 0).nodes ∧
      (event.after.member founding.index).nodes = (event.world.member founding.index).nodes := by
  intro founding event
  have different : Function.Injective fun index : Fin 4 =>
      ['a', 'b', 'c', 'd'].getD index 'e' := by
    unfold Function.Injective
    decide
  have begun : founding.world = fourMembers.after removal := by dsimp only [founding]
  have continued : event.world = founding.after.after sidesTaken := by dsimp only [event]
  have founded : founding.founded? = some "bbbbb" := by decide +kernel
  have clients : ∀ request ∈ removal ++ sidesTaken ++ [(event.index, event.command)],
      Http.isForPeers request.2 = false := by decide +kernel
  have stays : ∀ request ∈ sidesTaken ++ [(event.index, event.command)],
      request ≠ (founding.index, .leaveCluster) := by
    dsimp only [event, founding]
    simp [sidesTaken]
  have unknown : founding.after.AllEntries fun node =>
      node.id = "bbbbb" ∨ ¬ founding.after.PointsTo node founding.index := by decide +kernel
  have elsewhere : ∀ earlier ∈ founding.after.history sidesTaken, ∀ node ∈ earlier.offered?,
      ¬ earlier.world.PointsTo node founding.index := by decide +kernel
  have strangers :
      Disjoint event.carriers (founding.after.followers founding.index sidesTaken) := by
    decide +kernel
  refine ⟨?_, ?_, ?_, ?_, new_swarm_isolated (Supply.apart_tally different) rfl begun founded
    continued clients stays unknown elsewhere strangers⟩ <;> decide +kernel

/-- A member that left without being removed founds a swarm at the same endpoint.  When
another member joins the old swarm, the new one is told, and lists it. -/
theorem old_swarm_reaches_new :
    let founding : Event 4 := ⟨fourMembers.after desertion, 1, .initCluster ":4001" ""⟩
    let event : Event 4 := ⟨founding.after, 2, .joinCluster ["127.0.0.1:32768"] "" ""⟩
    founding.founded? = some "bbbbb" ∧ event.carriers = {0} ∧
      founding.after.followers founding.index [] = {1} ∧
      (event.world.member founding.index).nodes.map Node.id = ["bbbbb"] ∧
      (event.after.member founding.index).nodes.map Node.id = ["bbbbb", "c"] := by
  intro founding event
  refine ⟨?_, ?_, ?_, ?_, ?_⟩ <;> decide +kernel

end World

end SwarmManager
