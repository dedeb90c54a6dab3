import SwarmManager.Placement
import Mathlib.Data.List.Nodup

/-!
# What is drawn and where tasks are placed

Placing takes two draws for each task, first the instance's and then the task's,
and goes round the nodes from the cursor on.  `PlacedFrom` says so of each placed
task by its offset, and `placeFrom_placed` says that the walk over the nodes places
nothing else.

With distinct draws the tasks placed together have identifiers of their own, which
were not in use before (`PlacedFrom.nodup_taskIds`, `PlacedFrom.not_used_task`),
and so have their instances.
-/

namespace SwarmManager

set_option autoImplicit false

/-! ## Draws to come -/

namespace Supply

/-- The supply after so many draws. -/
def ahead (supply : Supply) (count : Nat) : Supply := { supply with drawn := supply.drawn + count }

theorem ahead_ahead (supply : Supply) (first second : Nat) :
    (supply.ahead first).ahead second = supply.ahead (first + second) := by
  simp only [ahead, Nat.add_assoc]

/-- Whatever is drawn, no identifier is handed out twice. -/
theorem Distinct.ahead {supply : Supply} (distinct : supply.Distinct) (count : Nat) :
    (supply.ahead count).Distinct :=
  distinct

/-- What has been handed out stays handed out. -/
theorem Used.ahead {supply : Supply} {id : String} (used : supply.Used id) (count : Nat) :
    (supply.ahead count).Used id := by
  obtain ⟨position, before, same⟩ := used
  exact ⟨position, Nat.lt_add_right count before, same⟩

/-- A draw to come has been handed out once it is behind. -/
theorem used_next_ahead (supply : Supply) {offset count : Nat} (behind : offset < count) :
    (supply.ahead count).Used (supply.ahead offset).next.id :=
  ⟨supply.drawn + offset, Nat.add_lt_add_left behind _, rfl⟩

/-- A draw to come has not been handed out. -/
theorem not_used_next_ahead {supply : Supply} (distinct : supply.Distinct) (offset : Nat) :
    ¬ supply.Used (supply.ahead offset).next.id := by
  intro used
  exact not_used_next (distinct.ahead offset) (used.ahead offset)

/-- Draws to come differ if they are not as far ahead. -/
theorem Distinct.next_ahead_inj {supply : Supply} (distinct : supply.Distinct)
    {first second : Nat} (same : (supply.ahead first).next.id = (supply.ahead second).next.id) :
    first = second :=
  Nat.add_left_cancel (distinct _ _ same)

end Supply

/-! ## The tasks that are placed together -/

/-- What is placed from an index on, with the turn before and after: of each task
the node, the draws and the index follow from its offset. -/
structure PlacedFrom (nodes : List Node) (service : Service) (suffix : String)
    (count index : Nat) (turn : RoundRobin) (supply : Supply) (placed : List Placed)
    (turnAfter : RoundRobin) : Prop where
  length_eq : placed.length = count
  at_offset : ∀ offset < count, ∃ node,
    nodes[(turn.cursor + offset) % nodes.length]? = some node ∧
    placed[offset]? =
      some (placeOn service suffix (index + offset) node (supply.ahead (2 * offset))).1
  cursor_after : turnAfter.cursor =
    if count = 0 then turn.cursor else (turn.cursor + count) % nodes.length

/-- Who is next is found at the cursor, reduced to the nodes there are. -/
theorem RoundRobin.next?_eq_some {α : Type} {turn after : RoundRobin} {nodes : List α} {node : α}
    (found : turn.next? nodes = some (node, after)) :
    nodes[turn.cursor % nodes.length]? = some node ∧
      after.cursor = (turn.cursor + 1) % nodes.length := by
  simp only [next?] at found
  split at found
  next _ there =>
    obtain ⟨rfl, rfl⟩ := Prod.mk.inj (Option.some.inj found)
    exact ⟨there, by simp⟩
  next => exact absurd found (by simp)

/-- Placing a task takes two draws. -/
theorem placeOn_supply (service : Service) (suffix : String) (index : Nat) (node : Node)
    (supply : Supply) : (placeOn service suffix index node supply).2 = supply.ahead 2 := rfl

/-- Placing gives what `PlacedFrom` says and takes two draws for each task. -/
theorem placeFrom_placed {nodes : List Node} {service : Service} {suffix : String}
    {count index : Nat} {turn turnAfter : RoundRobin} {supply supplyAfter : Supply}
    {placed : List Placed}
    (done : placeFrom nodes service suffix count index turn supply =
      some (placed, turnAfter, supplyAfter)) :
    PlacedFrom nodes service suffix count index turn supply placed turnAfter ∧
      supplyAfter = supply.ahead (2 * count) := by
  induction count generalizing index turn supply placed with
  | zero =>
      obtain ⟨rfl, rfl, rfl⟩ : [] = placed ∧ turn = turnAfter ∧ supply = supplyAfter := by
        simpa only [placeFrom, Option.some.injEq, Prod.mk.injEq] using done
      exact ⟨⟨rfl, fun offset inside => absurd inside (Nat.not_lt_zero _), rfl⟩, rfl⟩
  | succ count ih =>
      simp only [placeFrom] at done
      split at done
      next => exact absurd done (by simp)
      next node next found =>
        obtain ⟨there, cursor⟩ := RoundRobin.next?_eq_some found
        split at done
        next => exact absurd done (by simp)
        next later turnLast supplyLast rest =>
          obtain ⟨rfl, rfl, rfl⟩ := by
            simpa only [Option.some.injEq, Prod.mk.injEq] using done
          obtain ⟨⟨length, offsets, after⟩, rfl⟩ := ih rest
          refine ⟨⟨by simp [length], ?_, ?_⟩, ?_⟩
          · intro offset inside
            cases offset with
            | zero => exact ⟨node, there, rfl⟩
            | succ offset =>
                -- One offset later is the offset of the rest, after one node and two draws.
                obtain ⟨chosen, position, item⟩ := offsets offset (by omega)
                refine ⟨chosen, ?_, ?_⟩
                · rw [← position, cursor, Nat.mod_add_mod]
                  congr 2
                  omega
                · rw [List.getElem?_cons_succ, item, placeOn_supply, Supply.ahead_ahead,
                    Nat.mul_succ, Nat.add_comm 2, Nat.add_right_comm, Nat.add_assoc index]
          · rw [after, cursor]
            split
            next none => simp [none]
            next => simp only [Nat.succ_ne_zero, if_false, Nat.mod_add_mod]; congr 1; omega
          · rw [placeOn_supply, Supply.ahead_ahead, Nat.mul_succ, Nat.add_comm 2]

namespace PlacedFrom

variable {nodes : List Node} {service : Service} {suffix : String} {count index : Nat}
  {turn turnAfter : RoundRobin} {supply : Supply} {placed : List Placed}

/-- Whatever is placed is placed at some offset. -/
theorem exists_offset
    (all : PlacedFrom nodes service suffix count index turn supply placed turnAfter)
    {pair : Placed} (member : pair ∈ placed) :
    ∃ offset < count, ∃ node ∈ nodes,
      pair = (placeOn service suffix (index + offset) node (supply.ahead (2 * offset))).1 := by
  obtain ⟨offset, found⟩ := List.mem_iff_getElem?.mp member
  have inside : offset < count := all.length_eq ▸ (List.getElem?_eq_some_iff.mp found).1
  obtain ⟨node, there, item⟩ := all.at_offset offset inside
  exact ⟨offset, inside, node, List.mem_of_getElem? there,
    Option.some.inj (found.symm.trans item)⟩

/-- What depends on the offset of a placed task only is listed by offset. -/
theorem map_eq {α : Type}
    (all : PlacedFrom nodes service suffix count index turn supply placed turnAfter)
    {view : Placed → α} {value : Nat → α}
    (each : ∀ offset node,
      view (placeOn service suffix (index + offset) node (supply.ahead (2 * offset))).1 =
        value offset) :
    placed.map view = (List.range count).map value := by
  refine List.ext_getElem? fun offset => ?_
  rw [List.getElem?_map, List.getElem?_map]
  rcases Nat.lt_or_ge offset count with inside | outside
  · obtain ⟨node, _, item⟩ := all.at_offset offset inside
    simp [item, each, inside]
  · rw [List.getElem?_eq_none (all.length_eq ▸ outside), List.getElem?_eq_none (by simpa)]
    rfl

theorem map_taskId
    (all : PlacedFrom nodes service suffix count index turn supply placed turnAfter) :
    (placed.map fun pair => pair.task.id) =
      (List.range count).map fun offset => (supply.ahead (2 * offset + 1)).next.id :=
  all.map_eq fun _ _ => rfl

theorem map_processId
    (all : PlacedFrom nodes service suffix count index turn supply placed turnAfter) :
    (placed.map fun pair => pair.process.id) =
      (List.range count).map fun offset => (supply.ahead (2 * offset)).next.id :=
  all.map_eq fun _ _ => rfl

/-- Each placed task belongs to the service and is backed by the instance placed
with it. -/
theorem task_links (all : PlacedFrom nodes service suffix count index turn supply placed turnAfter)
    {pair : Placed} (member : pair ∈ placed) :
    pair.task.serviceId = service.id ∧ pair.task.containerId = pair.process.id := by
  obtain ⟨offset, _, node, _, rfl⟩ := all.exists_offset member
  exact ⟨rfl, rfl⟩

/-- The draws for what is placed were still to come, and are behind afterwards. -/
theorem draws (all : PlacedFrom nodes service suffix count index turn supply placed turnAfter)
    {pair : Placed} (member : pair ∈ placed) :
    (∃ offset < 2 * count, pair.task.id = (supply.ahead offset).next.id) ∧
      ∃ offset < 2 * count, pair.process.id = (supply.ahead offset).next.id := by
  obtain ⟨offset, inside, node, _, rfl⟩ := all.exists_offset member
  exact ⟨⟨2 * offset + 1, by omega, rfl⟩, ⟨2 * offset, by omega, rfl⟩⟩

theorem nodup_taskIds (distinct : supply.Distinct)
    (all : PlacedFrom nodes service suffix count index turn supply placed turnAfter) :
    (placed.map fun pair => pair.task.id).Nodup := by
  rw [all.map_taskId]
  refine List.nodup_range.map fun first second same => ?_
  have := distinct.next_ahead_inj same
  omega

theorem nodup_processIds (distinct : supply.Distinct)
    (all : PlacedFrom nodes service suffix count index turn supply placed turnAfter) :
    (placed.map fun pair => pair.process.id).Nodup := by
  rw [all.map_processId]
  refine List.nodup_range.map fun first second same => ?_
  have := distinct.next_ahead_inj same
  omega

end PlacedFrom

/-- There is a node for every task as soon as there is one for the first. -/
theorem placeFrom_eq_none {nodes : List Node} {service : Service} {suffix : String}
    {count index : Nat} {turn : RoundRobin} {supply : Supply} :
    placeFrom nodes service suffix count index turn supply = none ↔ nodes = [] ∧ 0 < count := by
  induction count generalizing index turn supply with
  | zero => simp [placeFrom]
  | succ count ih =>
      simp only [placeFrom]
      cases found : turn.next? nodes with
      | none => simp [RoundRobin.next?_eq_none.mp found]
      | some result =>
          have some : nodes ≠ [] := fun none => by
            simp [RoundRobin.next?_eq_none.mpr none] at found
          obtain ⟨node, next⟩ := result
          simp only [some, false_and, iff_false]
          split
          next failed => exact absurd (ih.mp failed).1 some
          next => simp

/-- What stands against placing the tasks of a service with the spec: it wants too many, or it
wants some and there is no node. -/
def ServiceSpec.objection? (spec : ServiceSpec) (nodes : List Node) : Option Error :=
  if ¬ spec.isGlobal ∧ maxReplicas < spec.replicas then some (tooManyReplicas spec.replicas)
  else if nodes.isEmpty ∧ ¬ spec.isGlobal ∧ 0 < spec.replicas then some .noNodes
  else none

/-- Placing the tasks of a service fails as its spec says. -/
theorem placeTasks_eq_error {nodes : List Node} {service : Service} {suffix : String}
    {turn : RoundRobin} {supply : Supply} {error : Error} :
    placeTasks nodes service suffix turn supply = .error error ↔
      service.spec.objection? nodes = some error := by
  rw [placeTasks, ServiceSpec.desiredTasks, ServiceSpec.objection?]
  by_cases everywhere : service.spec.isGlobal
  · simp only [everywhere, if_true, not_true, false_and, and_false, if_false]
    cases walked : placeFrom nodes service suffix nodes.length 0 turn supply with
    | none =>
      -- Without nodes no task is wanted.
      obtain ⟨rfl, wanted⟩ := placeFrom_eq_none.mp walked
      exact absurd wanted (Nat.lt_irrefl 0)
    | some => simp
  · rw [if_neg everywhere]
    by_cases many : ServiceSpec.maxReplicas < service.spec.replicas
    · simp [everywhere, many]
    · simp only [everywhere, many, and_false, if_false, List.isEmpty_iff]
      cases walked : placeFrom nodes service suffix service.spec.replicas 0 turn supply with
      | none =>
        obtain ⟨none, wanted⟩ := placeFrom_eq_none.mp walked
        simp [none, wanted]
      | some =>
        have placed : ¬ (nodes = [] ∧ 0 < service.spec.replicas) := fun none => by
          rw [placeFrom_eq_none.mpr none] at walked
          cases walked
        simpa using fun none wanted => absurd ⟨none, wanted⟩ placed

/-- What placing the tasks of a service gives, if it gives anything: as many as the
service wants on the nodes there are. -/
theorem placeTasks_placed {nodes : List Node} {service : Service} {suffix : String}
    {turn turnAfter : RoundRobin} {supply supplyAfter : Supply} {placed : List Placed}
    (done : placeTasks nodes service suffix turn supply = .ok (placed, turnAfter, supplyAfter)) :
    service.spec.desiredTasks nodes.length = .ok placed.length ∧
      PlacedFrom nodes service suffix placed.length 0 turn supply placed turnAfter ∧
      supplyAfter = supply.ahead (2 * placed.length) := by
  simp only [placeTasks] at done
  split at done
  next => exact absurd done (by simp)
  next count wanted =>
    split at done
    next => exact absurd done (by simp)
    next result walked =>
      obtain rfl := Except.ok.inj done
      obtain ⟨all, rfl⟩ := placeFrom_placed walked
      obtain rfl := all.length_eq
      exact ⟨wanted, all, rfl⟩

end SwarmManager
