import SwarmManager.World.Basic

/-!
# Running actions

What a member does by itself and what happens in a world are both actions: run on
a state, they end in a result or a failure, and in another state.  This module
says how the run of a composed action follows from the runs of its parts
(`run_bind`, `run_tryCatch`), and how a relation between the state before and the
state after is carried from the parts to the whole (`Keeps`).

`Keeps` looks at every run, also at those that fail: what an action did before it
failed stays done, and has to respect the relation as well.
-/

namespace SwarmManager

set_option autoImplicit false

variable {σ ε α β : Type}

/-! ## Runs -/

theorem run_pure (value : α) (state : σ) :
    (pure value : ExceptT ε (StateM σ) α).run.run state = (.ok value, state) := rfl

theorem run_throw (failure : ε) (state : σ) :
    (throw failure : ExceptT ε (StateM σ) α).run.run state = (.error failure, state) := rfl

theorem run_get (state : σ) :
    (get : ExceptT ε (StateM σ) σ).run.run state = (.ok state, state) := rfl

theorem run_set (next state : σ) :
    (set next : ExceptT ε (StateM σ) PUnit).run.run state = (.ok ⟨⟩, next) := rfl

theorem run_modify (update : σ → σ) (state : σ) :
    (modify update : ExceptT ε (StateM σ) PUnit).run.run state = (.ok ⟨⟩, update state) := rfl

/-- A result that was found without looking at the state. -/
theorem run_liftM (result : Except ε α) (state : σ) :
    (liftM result : ExceptT ε (StateM σ) α).run.run state = (result, state) := by
  cases result <;> rfl

/-- The second part of an action runs where the first one ended, unless that
failed. -/
theorem run_bind (first : ExceptT ε (StateM σ) α) (second : α → ExceptT ε (StateM σ) β)
    (state : σ) :
    (first >>= second).run.run state =
      match first.run.run state with
      | (.ok value, next) => (second value).run.run next
      | (.error failure, next) => (.error failure, next) := by
  rcases outcome : first.run.run state with ⟨failure | value, next⟩ <;>
    simp only [ExceptT.run_bind, StateT.run_bind, outcome] <;> rfl

/-- What an action is answered with changes nothing. -/
theorem run_answer (action : ExceptT ε (StateM σ) α) (shown : α → β) (state : σ) :
    (do return shown (← action) : ExceptT ε (StateM σ) β).run.run state =
      ((action.run.run state).1.map shown, (action.run.run state).2) := by
  rw [run_bind]
  rcases action.run.run state with ⟨failure | value, next⟩ <;> rfl

/-- The handler of an action runs where the action failed. -/
theorem run_tryCatch (action : ExceptT ε (StateM σ) α) (handler : ε → ExceptT ε (StateM σ) α)
    (state : σ) :
    (tryCatch action handler).run.run state =
      match action.run.run state with
      | (.ok value, next) => (.ok value, next)
      | (.error failure, next) => (handler failure).run.run next := by
  rcases outcome : action.run.run state with ⟨failure | value, next⟩ <;>
    simp only [ExceptT.run_tryCatch, StateT.run_bind, outcome] <;> rfl

namespace World

variable {n : Nat}

theorem run_fail (error : Error) (world : World n) :
    (fail error : Action n α).run.run world = (.error (.failed error), world) := rfl

theorem run_found (result : Except Error α) (world : World n) :
    (found result).run.run world = (result.mapError Halt.failed, world) := by
  cases result <;> rfl

theorem run_found_ok (value : α) (world : World n) :
    (found (.ok value) : Action n α).run.run world = (.ok value, world) := rfl

theorem run_look (index : Fin n) (world : World n) :
    (look index).run.run world = (.ok (world.member index), world) := rfl

theorem run_change (index : Fin n) (update : Member → Member) (world : World n) :
    (change index update).run.run world =
      (.ok ⟨⟩, world.setMember index (update (world.member index))) := rfl

/-- Why an action did not come to its end, if it did not. -/
def halt? : Except Halt α → Option Halt
  | .ok _ => none
  | .error halt => some halt

theorem halt?_eq_some {outcome : Except Halt α} {halt : Halt} :
    halt? outcome = some halt ↔ outcome = .error halt := by
  cases outcome <;> simp [halt?]

theorem halt?_eq_none {outcome : Except Halt α} :
    halt? outcome = none ↔ ∃ value, outcome = .ok value := by
  cases outcome <;> simp [halt?]

/-- A member that does something by itself changes nothing but itself. -/
theorem run_act (index : Fin n) (action : Member.Action α) (world : World n) :
    (act index action).run.run world =
      ((action.run.run (world.member index)).1.mapError Halt.failed,
        world.setMember index (action.run.run (world.member index)).2) := by
  simp only [act, run_bind, run_get]
  rcases action.run.run (world.member index) with ⟨error | value, after⟩ <;> rfl

end World

/-! ## Relations that every run respects -/

/-- However an action ends, it leads from a state to a related one. -/
def Keeps (related : σ → σ → Prop) (action : ExceptT ε (StateM σ) α) : Prop :=
  ∀ state, related state (action.run.run state).2

section Keeps

variable {related : σ → σ → Prop}

/-- What does not touch the state respects every reflexive relation. -/
theorem Keeps.of_run (refl : ∀ state, related state state) {action : ExceptT ε (StateM σ) α}
    {result : σ → Except ε α} (run : ∀ state, action.run.run state = (result state, state)) :
    Keeps related action := by
  intro state
  rw [run]
  exact refl state

theorem Keeps.bind (trans : ∀ first second third, related first second → related second third →
      related first third)
    {first : ExceptT ε (StateM σ) α} {second : α → ExceptT ε (StateM σ) β}
    (keepsFirst : Keeps related first) (keepsSecond : ∀ value, Keeps related (second value)) :
    Keeps related (first >>= second) := by
  intro state
  have step := keepsFirst state
  rw [run_bind]
  rcases outcome : first.run.run state with ⟨failure | value, next⟩ <;> rw [outcome] at step
  · exact step
  · exact trans _ _ _ step (keepsSecond value next)

theorem Keeps.tryCatch (trans : ∀ first second third, related first second →
      related second third → related first third)
    {action : ExceptT ε (StateM σ) α} {handler : ε → ExceptT ε (StateM σ) α}
    (keepsAction : Keeps related action)
    (keepsHandler : ∀ failure, Keeps related (handler failure)) :
    Keeps related (tryCatch action handler) := by
  intro state
  have step := keepsAction state
  rw [run_tryCatch]
  rcases outcome : action.run.run state with ⟨failure | value, next⟩ <;> rw [outcome] at step
  · exact trans _ _ _ step (keepsHandler failure next)
  · exact step

end Keeps

end SwarmManager
