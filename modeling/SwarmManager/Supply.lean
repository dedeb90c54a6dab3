import SwarmManager.Time.Instant

/-!
# Generated identifiers

Swarms, nodes, services, tasks and instances get an identifier, a creation time
and, where they have one, a process number from outside.  A `Supply` is the
sequence of what will be handed out and how much of it has been.  Everything that
is created takes one `Draw`, and no draw is handed out twice.

Freshness of identifiers is a property of the sequence: `Supply.Distinct` says
that no two draws share one.
-/

namespace SwarmManager

set_option autoImplicit false

/-- What is handed out for one creation. -/
structure Draw where
  id : String
  instant : Instant
  processNumber : Fin 50000

/-- A sequence of draws and the number of those already taken. -/
structure Supply where
  source : Nat → Draw
  drawn : Nat

namespace Supply

/-- The next draw. -/
def next (supply : Supply) : Draw := supply.source supply.drawn

/-- The supply after a draw. -/
def advance (supply : Supply) : Supply := { supply with drawn := supply.drawn + 1 }

/-- No identifier is handed out twice. -/
def Distinct (supply : Supply) : Prop :=
  ∀ first second : Nat, (supply.source first).id = (supply.source second).id → first = second

/-- Whether an identifier has been handed out. -/
def Used (supply : Supply) (id : String) : Prop :=
  ∃ position, position < supply.drawn ∧ (supply.source position).id = id

/-- The next identifier has not been handed out. -/
theorem not_used_next {supply : Supply} (distinct : supply.Distinct) :
    ¬ supply.Used supply.next.id := by
  rintro ⟨position, before, same⟩
  have := distinct position supply.drawn same
  omega

end Supply

end SwarmManager
