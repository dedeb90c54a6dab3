import SwarmManager.Instance.Basic

/-!
# The registry of instances

A member lists its instances in the order in which they were started.  The view
of the registry is that list: starting appends, and removing takes out the first
instance of an identifier and leaves the order of the others.
-/

namespace SwarmManager

set_option autoImplicit false

/-- The instances of a member in the order in which they were started. -/
structure InstanceRegistry where
  toList : List ProcessInstance
  deriving DecidableEq

namespace InstanceRegistry

/-- The registry without instances. -/
def empty : InstanceRegistry := ⟨[]⟩

/-- Register instances, in their order. -/
def append (registry : InstanceRegistry) (started : List ProcessInstance) : InstanceRegistry :=
  ⟨registry.toList ++ started⟩

/-- Register one instance. -/
def insert (registry : InstanceRegistry) (started : ProcessInstance) : InstanceRegistry :=
  registry.append [started]

/-- The registered instance of an identifier. -/
def ofId? (registry : InstanceRegistry) (id : String) : Option ProcessInstance :=
  registry.toList.find? fun process => process.id == id

/-- Take out the first instance of an identifier. -/
def remove (registry : InstanceRegistry) (id : String) : InstanceRegistry :=
  ⟨registry.toList.eraseP fun process => process.id == id⟩

/-- Take out the first instance of each identifier. -/
def removeAll (registry : InstanceRegistry) (ids : List String) : InstanceRegistry :=
  ids.foldl remove registry

/-- The first instance that an identifier or a name fits. -/
def get (registry : InstanceRegistry) (asked : String) : Except Error ProcessInstance :=
  match registry.toList.find? fun process => process.answersTo asked with
  | some process => .ok process
  | none => .error (.instanceNotFound asked)

/-- The number of instances. -/
def size (registry : InstanceRegistry) : Nat := registry.toList.length

/-- Whether there are no instances. -/
def isEmpty (registry : InstanceRegistry) : Bool := registry.toList.isEmpty

theorem toList_append (registry : InstanceRegistry) (started : List ProcessInstance) :
    (registry.append started).toList = registry.toList ++ started := rfl

theorem toList_remove (registry : InstanceRegistry) (id : String) :
    (registry.remove id).toList = registry.toList.eraseP fun process => process.id == id := rfl

/-- An instance is missing exactly if nothing answers to the text. -/
theorem get_eq_error {registry : InstanceRegistry} {asked : String} :
    registry.get asked = .error (.instanceNotFound asked) ↔
      ∀ process ∈ registry.toList, process.answersTo asked = false := by
  unfold get
  split
  next process found =>
    constructor
    · intro impossible
      exact absurd impossible (by simp)
    · intro none
      have holds := List.find?_some found
      rw [none process (List.mem_of_find?_eq_some found)] at holds
      exact absurd holds (by simp)
  next absent =>
    simpa using absent

end InstanceRegistry

end SwarmManager
