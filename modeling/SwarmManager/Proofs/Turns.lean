import SwarmManager.Proofs.Notifications
import SwarmManager.Proofs.Start
import Mathlib.Data.List.Perm.Subperm
import Mathlib.Data.Nat.ModEq
import Mathlib.Data.Option.Basic

/-!
# Turns

All services of a member share one turn, which goes round its nodes.  The positions whose turn
it is are the remainders of the cursor and its successors (`RoundRobin.positions`), whatever
the cursor was before, so as many turns as there are nodes give each node one
(`positions_round`), and any number of turns gives each of them its share, rounded up or down
(`count_positions`).

A request moves the turn on by the tasks it places, and one that fails does not move it
(`Event.goesRound`).  So the placements of a run are one sequence of turns as long as the nodes
stay the same, which is `tasks_are_placed_in_turn`.
-/

namespace SwarmManager

set_option autoImplicit false

variable {n : Nat}

/-! ## Positions -/

namespace RoundRobin

/-- The positions whose turn comes next, among so many nodes. -/
def positions (turn : RoundRobin) (nodeCount count : Nat) : List Nat :=
  (List.range count).map fun offset => (turn.cursor + offset) % nodeCount

/-- The turn after so many placements. -/
def after (turn : RoundRobin) (nodeCount count : Nat) : RoundRobin :=
  if count = 0 then turn else ⟨(turn.cursor + count) % nodeCount⟩

variable (turn : RoundRobin) (nodeCount : Nat)

@[simp] theorem length_positions (count : Nat) :
    (turn.positions nodeCount count).length = count := by
  simp [positions]

@[simp] theorem positions_zero : turn.positions nodeCount 0 = [] := rfl

@[simp] theorem after_zero : turn.after nodeCount 0 = turn := rfl

/-- Turns are taken up where they were left. -/
theorem positions_add (first second : Nat) :
    turn.positions nodeCount (first + second) =
      turn.positions nodeCount first ++
        (turn.after nodeCount first).positions nodeCount second := by
  rw [positions, List.range_add, List.map_append, List.map_map]
  refine congrArg (_ ++ ·) (List.map_congr_left fun offset _ => ?_)
  by_cases none : first = 0
  · simp [after, none]
  · simp only [Function.comp_apply, after, none, if_false, Nat.mod_add_mod, Nat.add_assoc]

theorem after_after (first second : Nat) :
    (turn.after nodeCount first).after nodeCount second =
      turn.after nodeCount (first + second) := by
  by_cases noneFirst : first = 0
  · simp [noneFirst]
  by_cases noneSecond : second = 0
  · simp [noneSecond]
  simp [after, noneFirst, noneSecond, Nat.add_assoc]

/-- Up to one round, no position has two turns. -/
theorem nodup_positions {count : Nat} (short : count ≤ nodeCount) :
    (turn.positions nodeCount count).Nodup := by
  refine List.Nodup.map_on (fun first inFirst second inSecond same => ?_) List.nodup_range
  have equal : Nat.ModEq nodeCount first second := Nat.ModEq.add_left_cancel' turn.cursor same
  exact equal.eq_of_lt_of_lt ((List.mem_range.mp inFirst).trans_le short)
    ((List.mem_range.mp inSecond).trans_le short)

variable {nodeCount}

theorem lt_of_mem_positions {count position : Nat} (some : 0 < nodeCount)
    (listed : position ∈ turn.positions nodeCount count) : position < nodeCount := by
  obtain ⟨offset, _, rfl⟩ := List.mem_map.mp listed
  exact Nat.mod_lt _ some

/-- A round gives each position one turn. -/
theorem positions_round : (turn.positions nodeCount nodeCount).Perm (List.range nodeCount) := by
  rcases Nat.eq_zero_or_pos nodeCount with rfl | some
  · exact .refl []
  · have inRange : turn.positions nodeCount nodeCount ⊆ List.range nodeCount :=
      fun position listed => List.mem_range.mpr (turn.lt_of_mem_positions some listed)
    exact (List.subperm_of_subset (turn.nodup_positions nodeCount le_rfl) inRange).perm_of_length_le
      (by simp)

/-- Any number of turns gives a position its share of them, rounded up or down. -/
theorem count_positions {position : Nat} (inside : position < nodeCount) (count : Nat) :
    count / nodeCount ≤ (turn.positions nodeCount count).count position ∧
      (turn.positions nodeCount count).count position ≤ count / nodeCount + 1 := by
  induction count using Nat.strong_induction_on generalizing turn with
  | h count ih =>
    rcases Nat.lt_or_ge count nodeCount with short | long
    · have once := List.nodup_iff_count_le_one.mp (turn.nodup_positions nodeCount short.le) position
      rw [Nat.div_eq_of_lt short]
      exact ⟨Nat.zero_le _, once⟩
    · -- One round gives one turn, and then there are fewer to come.
      obtain ⟨rest, rfl⟩ := Nat.exists_eq_add_of_le long
      have round : (turn.positions nodeCount nodeCount).count position = 1 := by
        rw [turn.positions_round.count_eq]
        exact List.count_eq_one_of_mem List.nodup_range (List.mem_range.mpr inside)
      have later := ih rest (by omega) (turn.after nodeCount nodeCount)
      rw [positions_add, List.count_append, round, Nat.add_div_left _ (by omega)]
      omega

/-- Among turns in a row, as many as there are nodes are a round. -/
theorem positions_window {first count : Nat} (inside : first + nodeCount ≤ count) :
    (((turn.positions nodeCount count).drop first).take nodeCount).Perm
      (List.range nodeCount) := by
  obtain ⟨rest, rfl⟩ := Nat.exists_eq_add_of_le inside
  rw [Nat.add_assoc, positions_add, List.drop_left' (length_positions _ _ _), positions_add,
    List.take_left' (length_positions _ _ _)]
  exact positions_round _

/-- No position is more than one turn ahead of another. -/
theorem count_positions_le {first second : Nat} (inFirst : first < nodeCount)
    (inSecond : second < nodeCount) (count : Nat) :
    (turn.positions nodeCount count).count first ≤
      (turn.positions nodeCount count).count second + 1 :=
  (turn.count_positions inFirst count).2.trans
    (Nat.add_le_add_right (turn.count_positions inSecond count).1 1)

end RoundRobin

/-! ## Tasks on positions -/

/-- The tasks are on the nodes at the positions, one after the other. -/
def OnPositions (nodes : List Node) (positions : List Nat) (tasks : List Task) : Prop :=
  (tasks.map fun task => some task.nodeId) =
    positions.map fun position => nodes[position]?.map Node.id

namespace OnPositions

variable {nodes : List Node} {positions : List Nat} {tasks : List Task}

theorem append {laterPositions : List Nat} {laterTasks : List Task}
    (first : OnPositions nodes positions tasks)
    (second : OnPositions nodes laterPositions laterTasks) :
    OnPositions nodes (positions ++ laterPositions) (tasks ++ laterTasks) := by
  rw [OnPositions, List.map_append, List.map_append, first, second]

/-- Tasks on all positions once are one for each node. -/
theorem perm_nodeIds (placed : OnPositions nodes positions tasks)
    (round : positions.Perm (List.range nodes.length)) :
    (tasks.map Task.nodeId).Perm (nodes.map Node.id) := by
  have each : (List.range nodes.length).map (fun position => nodes[position]?.map Node.id) =
      (nodes.map Node.id).map some := by
    refine List.ext_getElem? fun position => ?_
    rcases Nat.lt_or_ge position nodes.length with inside | outside
    · simp [inside]
    · simp [outside]
  have known : ((tasks.map Task.nodeId).map some).Perm ((nodes.map Node.id).map some) := by
    rw [List.map_map, ← each]
    exact (List.Perm.of_eq placed).trans (round.map _)
  exact (List.map_perm_map_iff (Option.some_injective _)).mp known

/-- The tasks on a node are those on its position, if no other node has its identifier. -/
theorem countP_nodeId (placed : OnPositions nodes positions tasks)
    (apart : (nodes.map Node.id).Nodup) {position : Nat} {node : Node}
    (there : nodes[position]? = some node) :
    (tasks.countP fun task => task.nodeId == node.id) = positions.count position := by
  have onNode : (tasks.countP fun task => task.nodeId == node.id) =
      (tasks.map fun task => some task.nodeId).count (some node.id) := by
    rw [List.count, List.countP_map]
    exact List.countP_congr fun task _ => by simp
  rw [onNode, placed, List.count, List.countP_map, List.count]
  refine List.countP_congr fun other _ => ?_
  simp only [Function.comp_apply, beq_iff_eq]
  constructor
  · intro same
    have ids : (nodes.map Node.id)[other]? = (nodes.map Node.id)[position]? := by
      rw [List.getElem?_map, List.getElem?_map, same, there]
      rfl
    have inside : other < (nodes.map Node.id).length := by
      by_contra outside
      rw [List.length_map, Nat.not_lt] at outside
      rw [List.getElem?_eq_none outside] at same
      exact absurd same (by simp)
    exact (List.getElem?_inj inside apart).mp ids
  · rintro rfl
    rw [there]
    rfl

end OnPositions

/-- The tasks are on the nodes whose turn it was, one after the other, and the turn has moved on
by as many. -/
structure InTurn (nodes : List Node) (turn : RoundRobin) (tasks : List Task)
    (turnAfter : RoundRobin) : Prop where
  onPositions : OnPositions nodes (turn.positions nodes.length tasks.length) tasks
  turnAfter_eq : turnAfter = turn.after nodes.length tasks.length

namespace InTurn

variable {nodes : List Node} {turn : RoundRobin} {tasks : List Task}

theorem nil : InTurn nodes turn [] turn := ⟨rfl, rfl⟩

theorem append {between last : RoundRobin} {later : List Task}
    (first : InTurn nodes turn tasks between) (second : InTurn nodes between later last) :
    InTurn nodes turn (tasks ++ later) last := by
  obtain ⟨onFirst, rfl⟩ := first
  obtain ⟨onSecond, rfl⟩ := second
  constructor
  · rw [List.length_append, RoundRobin.positions_add]
    exact onFirst.append onSecond
  · rw [List.length_append, RoundRobin.after_after]

end InTurn

/-! ## Requests -/

/-- What is placed together is placed in turn. -/
theorem PlacedFrom.inTurn {nodes : List Node} {service : Service} {suffix : String}
    {index : Nat} {turn turnAfter : RoundRobin} {supply : Supply} {placed : List Placed}
    (all : PlacedFrom nodes service suffix placed.length index turn supply placed turnAfter) :
    InTurn nodes turn (placed.map Placed.task) turnAfter := by
  constructor
  · rw [OnPositions, List.map_map, List.length_map]
    refine List.ext_getElem? fun offset => ?_
    rw [List.getElem?_map, List.getElem?_map]
    rcases Nat.lt_or_ge offset placed.length with inside | outside
    · obtain ⟨node, there, item⟩ := all.at_offset offset inside
      simp only [RoundRobin.positions, item, List.getElem?_map, List.getElem?_range inside,
        Option.map_some, there]
      rfl
    · rw [List.getElem?_eq_none outside, List.getElem?_eq_none (by simpa)]
      rfl
  · have cursor := all.cursor_after
    obtain ⟨cursorAfter⟩ := turnAfter
    rw [List.length_map, RoundRobin.after]
    split at cursor
    next none => rw [if_pos none]; exact congrArg RoundRobin.mk cursor
    next some => rw [if_neg some]; exact congrArg RoundRobin.mk cursor

namespace Event

/-- The tasks of a member that the request leaves there. -/
def staying (event : Event n) (index : Fin n) : List Task :=
  match event.retired? index with
  | some service => (event.world.member index).tasksApart service.id
  | none => (event.world.member index).tasks

/-- The tasks of a member that the request placed. -/
def placed (event : Event n) (index : Fin n) : List Task :=
  (event.next index).tasks.drop (event.staying index).length

/-- The request placed its tasks in turn: as many as the spec asks for that it gave to a service,
if it gave one, and otherwise none. -/
structure GoesRound (event : Event n) (index : Fin n) : Prop where
  tasks_eq : (event.next index).tasks = event.staying index ++ event.placed index
  inTurn : InTurn (event.world.member index).nodes (event.world.member index).turn
    (event.placed index) (event.next index).turn
  settled : ∀ service, event.settled? index = some service →
    service.spec.desiredTasks (event.world.member index).nodes.length =
        .ok (event.placed index).length ∧
      ∀ task ∈ event.placed index, task.serviceId = service.id
  unsettled : event.settled? index = none → event.placed index = []

variable {event : Event n} {index : Fin n}

theorem placed_eq {tasks : List Task}
    (tasks_eq : (event.next index).tasks = event.staying index ++ tasks) :
    event.placed index = tasks := by
  rw [placed, tasks_eq, List.drop_left]

/-- A request that only leaves tasks where they are places none. -/
theorem goesRound_of_unsettled (unsettled : event.settled? index = none)
    (tasks_eq : (event.next index).tasks = event.staying index)
    (turn_eq : (event.next index).turn = (event.world.member index).turn) :
    event.GoesRound index := by
  have tasks_append : (event.next index).tasks = event.staying index ++ [] := by
    rw [tasks_eq, List.append_nil]
  have none : event.placed index = [] := placed_eq tasks_append
  refine ⟨none ▸ tasks_append, none ▸ turn_eq ▸ .nil, ?_, fun _ => none⟩
  intro service settled
  exact absurd (unsettled.symm.trans settled) (by simp)

/-- A request that gives a service its spec places what it wants in turn. -/
theorem goesRound_of_settled {service : Service} {placed : List Placed} {suffix : String}
    {turn : RoundRobin} {supply : Supply} (settled : event.settled? index = some service)
    (tasks_eq : (event.next index).tasks = event.staying index ++ placed.map Placed.task)
    (turn_eq : (event.next index).turn = turn)
    (wanted : service.spec.desiredTasks (event.world.member index).nodes.length =
      .ok placed.length)
    (all : PlacedFrom (event.world.member index).nodes service suffix placed.length 0
      (event.world.member index).turn supply placed turn) : event.GoesRound index := by
  have tasks : event.placed index = placed.map Placed.task := placed_eq tasks_eq
  refine ⟨tasks ▸ tasks_eq, tasks ▸ turn_eq ▸ all.inTurn, ?_,
    fun none => absurd (none.symm.trans settled) (by simp)⟩
  intro other same
  obtain rfl : service = other := Option.some.inj (settled.symm.trans same)
  rw [tasks, List.length_map]
  refine ⟨wanted, fun task listed => ?_⟩
  obtain ⟨pair, present, rfl⟩ := List.mem_map.mp listed
  exact (all.task_links present).1

/-- Whatever a request does, tasks are placed in turn. -/
theorem goesRound (event : Event n) (index : Fin n) : event.GoesRound index := by
  have course := event.course index
  generalize settled : event.settled? index = settled? at course
  generalize retired : event.retired? index = retired? at course
  generalize next_eq : event.next index = after at course
  cases course with
  | kept same =>
    rw [← next_eq] at same
    have stays : event.staying index = (event.world.member index).tasks := by
      rw [staying, retired]
    exact goesRound_of_unsettled settled (same.tasks.trans stays.symm) same.turn
  | created created =>
    have stays : event.staying index = (event.world.member index).tasks := by
      rw [staying, retired]
    refine goesRound_of_settled settled ?_ (next_eq ▸ ?_) created.wanted created.all_placed
    · rw [next_eq, stays]
      exact Member.tasks_register _ _
    · exact Member.turn_register _ _
  | @updated _ _ _ service _ _ updated =>
    have stays : event.staying index = (event.world.member index).tasksApart service.id := by
      rw [staying, retired]
    refine goesRound_of_settled settled ?_ (next_eq ▸ ?_) updated.wanted updated.all_placed
    · rw [next_eq, stays]
      exact (Member.tasks_register _ _).trans (congrArg (· ++ _) (Member.tasks_withoutTasksOf _ _))
    · exact Member.turn_register _ _
  | deleted place =>
    have stays : event.staying index = (event.world.member index).tasksApart
        ((event.world.member index).services.get place).id := by
      rw [staying, retired]
    refine goesRound_of_unsettled settled ?_ (next_eq ▸ rfl)
    rw [next_eq, stays]
    exact Member.tasks_withoutTasksOf _ _

/-- A global service has one task on each node. -/
theorem GoesRound.global (round : event.GoesRound index) {service : Service}
    (settled : event.settled? index = some service) (everywhere : service.spec.isGlobal) :
    (event.placed index).length = (event.world.member index).nodes.length := by
  have wanted := (round.settled service settled).1
  rw [ServiceSpec.desiredTasks, if_pos everywhere] at wanted
  exact (Except.ok.inj wanted).symm

end Event

/-! ## Runs -/

namespace World

/-- The tasks of a member that the requests of a run placed, also those that are gone since. -/
def placements (world : World n) (requests : List (Fin n × Command)) (index : Fin n) :
    List Task :=
  (world.history requests).flatMap fun event => event.placed index

/-- The nodes of a member are the same at every request of a run. -/
def SteadyNodes (world : World n) (requests : List (Fin n × Command)) (index : Fin n) : Prop :=
  ∀ event ∈ world.history requests,
    (event.world.member index).nodes = (world.member index).nodes

/-- As long as the nodes are the same, each request takes up the turn where the one before left
it. -/
theorem inTurn_after {world : World n} {requests : List (Fin n × Command)} {index : Fin n}
    (steady : world.SteadyNodes requests index) :
    InTurn (world.member index).nodes (world.member index).turn (world.placements requests index)
      ((world.after requests).member index).turn := by
  induction requests using List.reverseRecOn with
  | nil => exact .nil
  | append_singleton requests request ih =>
    rw [SteadyNodes, history_append] at steady
    have earlier := ih fun event listed => steady event (List.mem_append_left _ listed)
    let event : Event n := ⟨world.after requests, request.1, request.2⟩
    have here : (event.world.member index).nodes = (world.member index).nodes :=
      steady event (List.mem_append_right _ (List.mem_singleton_self event))
    have last := (event.goesRound index).inTurn
    rw [here] at last
    rw [placements, history_append, List.flatMap_append, List.flatMap_singleton, after_append]
    exact earlier.append last

end World

/-- **Placement goes round exactly and fairly.**  Whatever the turn of a member and whatever its
nodes, a request that gives a service its spec places each of its tasks on the next position,
counted from the cursor and reduced to the nodes there are, and moves the turn on by as many;
every other request, and every one that fails, places nothing and leaves the turn.  So a global
service has one task on each position.

In a run, however its requests end, the positions go on where they were left as long as the
nodes stay the same.  Then as many placements in a row as there are nodes are one on each
position, and what is placed on two positions over the whole run differs by one at most. -/
theorem tasks_are_placed_in_turn (index : Fin n) :
    (∀ event : Event n, event.GoesRound index ∧
      ∀ service, event.settled? index = some service → service.spec.isGlobal →
        let member := event.world.member index
        (member.turn.positions member.nodes.length (event.placed index).length).Perm
            (List.range member.nodes.length) ∧
          ((event.placed index).map Task.nodeId).Perm (member.nodes.map Node.id)) ∧
    ∀ (world : World n) (requests : List (Fin n × Command)), world.SteadyNodes requests index →
      let nodes := (world.member index).nodes
      let turn := (world.member index).turn
      let placed := world.placements requests index
      let positions := turn.positions nodes.length placed.length
      InTurn nodes turn placed ((world.after requests).member index).turn ∧
      (∀ first, first + nodes.length ≤ placed.length →
        ((positions.drop first).take nodes.length).Perm (List.range nodes.length)) ∧
      (∀ first < nodes.length, ∀ second < nodes.length,
        positions.count first ≤ positions.count second + 1) ∧
      ((nodes.map Node.id).Nodup → ∀ first ∈ nodes, ∀ second ∈ nodes,
        (placed.countP fun task => task.nodeId == first.id) ≤
          (placed.countP fun task => task.nodeId == second.id) + 1) := by
  constructor
  · intro event
    have round := event.goesRound index
    refine ⟨round, fun service settled everywhere => ?_⟩
    have onPositions := round.inTurn.onPositions
    rw [round.global settled everywhere] at onPositions ⊢
    exact ⟨RoundRobin.positions_round _, onPositions.perm_nodeIds (RoundRobin.positions_round _)⟩
  · intro world requests steady nodes turn placed positions
    have inTurn : InTurn nodes turn placed _ := World.inTurn_after steady
    refine ⟨inTurn, fun first inside => turn.positions_window inside,
      fun first inFirst second inSecond => turn.count_positions_le inFirst inSecond _, ?_⟩
    intro apart first inFirst second inSecond
    obtain ⟨firstPosition, firstThere⟩ := List.getElem?_of_mem inFirst
    obtain ⟨secondPosition, secondThere⟩ := List.getElem?_of_mem inSecond
    rw [inTurn.onPositions.countP_nodeId apart firstThere,
      inTurn.onPositions.countP_nodeId apart secondThere]
    exact turn.count_positions_le (List.getElem?_eq_some_iff.mp firstThere).1
      (List.getElem?_eq_some_iff.mp secondThere).1 _

/-- A member whose turn stands at its second node places three tasks, fails, takes them away, and
places a service on both nodes. -/
theorem tasks_are_placed_in_turn_rescheduling :
    let world := World.twoMembers.after World.twoServices
    let requests := World.rescheduling
    let nodes := (world.member 0).nodes
    let placed := world.placements requests 0
    let last : Event 2 := ⟨world.after (requests.take 4), 0,
      .createService { mode := some { global := some {} } }⟩
    (world.member 0).turn = ⟨1⟩ ∧ placed.map Task.nodeId = ["b", "a", "b", "a", "b"] ∧
      InTurn nodes ⟨1⟩ placed ((world.after requests).member 0).turn ∧
      (∀ first ∈ nodes, ∀ second ∈ nodes, (placed.countP fun task => task.nodeId == first.id) ≤
        (placed.countP fun task => task.nodeId == second.id) + 1) ∧
      ((last.placed 0).map Task.nodeId).Perm (nodes.map Node.id) := by
  intro world requests nodes placed last
  have turn : (world.member 0).turn = ⟨1⟩ := by decide +kernel
  have steady : world.SteadyNodes requests 0 := by
    rw [World.SteadyNodes]
    decide +kernel
  obtain ⟨events, runs⟩ := tasks_are_placed_in_turn (n := 2) 0
  obtain ⟨inTurn, _, _, fair⟩ := runs world requests steady
  refine ⟨turn, by decide +kernel, turn ▸ inTurn, fair (by decide +kernel), ?_⟩
  have settled : (last.settled? 0).isSome := by decide +kernel
  have everywhere : ∀ service ∈ last.settled? 0, service.spec.isGlobal := by decide +kernel
  have same : (last.world.member 0).nodes = nodes := by decide +kernel
  obtain ⟨service, settled⟩ := Option.isSome_iff_exists.mp settled
  rw [← same]
  exact ((events last).2 service settled (everywhere service settled)).2

end SwarmManager
