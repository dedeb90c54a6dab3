/-!
# Finite maps keyed by text

Labels, exposed ports, port bindings and filter categories are all finite maps
from text.  A `StringMap` keeps its entries in strictly ascending key order, and
the order is part of the type, so two maps with the same bindings are the same
list of entries and hence the same map.

The view of a map is `find?`.  The main statement of this module is
`find?_insert`: an insertion is seen at its own key and nowhere else.
-/

namespace SwarmManager

set_option autoImplicit false

/-- A finite map from text, kept in strictly ascending key order. -/
structure StringMap (α : Type) where
  entries : List (String × α)
  ascending : entries.Pairwise fun earlier later => earlier.1 < later.1
  deriving DecidableEq

namespace StringMap

variable {α : Type}

/-! ## Entries in ascending order -/

/-- Of two keys neither of which equals the other, the one that is not below is
above. -/
theorem lt_of_not_lt_of_ne {left right : String} (notBelow : ¬ left < right)
    (different : left ≠ right) : right < left := by
  rcases Classical.em (right < left) with above | notAbove
  · exact above
  · exact absurd (String.le_antisymm (String.not_lt.mp notAbove) (String.not_lt.mp notBelow))
      different

/-- Put a binding at its place in an ascending list, over any binding its key
already has. -/
def insertEntry (key : String) (value : α) : List (String × α) → List (String × α)
  | [] => [(key, value)]
  | (other, held) :: rest =>
      if key < other then (key, value) :: (other, held) :: rest
      else if key = other then (key, value) :: rest
      else (other, held) :: insertEntry key value rest

/-- The keys after an insertion are the keys before it and the new one. -/
theorem mem_insertEntry {key : String} {value : α} {entries : List (String × α)}
    {entry : String × α} (member : entry ∈ insertEntry key value entries) :
    entry = (key, value) ∨ entry ∈ entries := by
  induction entries with
  | nil => simpa only [insertEntry, List.mem_singleton, List.not_mem_nil, or_false] using member
  | cons head rest ih =>
      obtain ⟨other, held⟩ := head
      simp only [insertEntry] at member
      split at member
      · simpa only [List.mem_cons] using member
      · split at member
        · rcases List.mem_cons.mp member with first | later
          · exact Or.inl first
          · exact Or.inr (List.mem_cons_of_mem _ later)
        · rcases List.mem_cons.mp member with first | later
          · exact Or.inr (first ▸ List.mem_cons_self)
          · rcases ih later with fresh | old
            · exact Or.inl fresh
            · exact Or.inr (List.mem_cons_of_mem _ old)

/-- Insertion keeps the keys ascending. -/
theorem ascending_insertEntry (key : String) (value : α) {entries : List (String × α)}
    (ascending : entries.Pairwise fun earlier later => earlier.1 < later.1) :
    (insertEntry key value entries).Pairwise fun earlier later => earlier.1 < later.1 := by
  induction entries with
  | nil => exact List.pairwise_singleton _ _
  | cons head rest ih =>
      obtain ⟨other, held⟩ := head
      obtain ⟨above, restAscending⟩ := List.pairwise_cons.mp ascending
      simp only [insertEntry]
      split
      next below =>
        refine List.pairwise_cons.mpr ⟨?_, ascending⟩
        intro entry member
        rcases List.mem_cons.mp member with first | later
        · exact first ▸ below
        · exact String.lt_trans below (above entry later)
      next notBelow =>
        split
        next same =>
          subst same
          exact List.pairwise_cons.mpr ⟨above, restAscending⟩
        next different =>
          refine List.pairwise_cons.mpr ⟨?_, ih restAscending⟩
          intro entry member
          rcases mem_insertEntry member with fresh | old
          · exact fresh ▸ lt_of_not_lt_of_ne notBelow different
          · exact above entry old

/-- A key above all others is put at the end. -/
theorem insertEntry_of_above {key : String} {entries : List (String × α)} (value : α)
    (above : ∀ entry ∈ entries, entry.1 < key) :
    insertEntry key value entries = entries ++ [(key, value)] := by
  induction entries with
  | nil => rfl
  | cons head rest ih =>
      obtain ⟨other, held⟩ := head
      have below : other < key := above (other, held) List.mem_cons_self
      have notBelow : ¬ key < other := String.lt_asymm below
      have different : key ≠ other := by
        rintro rfl
        exact String.lt_irrefl key below
      have later := ih fun entry member => above entry (List.mem_cons_of_mem _ member)
      rw [insertEntry, if_neg notBelow, if_neg different, later, List.cons_append]

/-- Bindings of different keys may be put in either order. -/
theorem insertEntry_comm {left right : String} (different : left ≠ right) (first second : α)
    (entries : List (String × α)) :
    insertEntry left first (insertEntry right second entries) =
      insertEntry right second (insertEntry left first entries) := by
  induction entries with
  | nil =>
      simp only [insertEntry]
      grind [String.lt_asymm, lt_of_not_lt_of_ne]
  | cons head rest ih =>
      obtain ⟨other, held⟩ := head
      simp only [insertEntry]
      grind [insertEntry, String.lt_asymm, String.lt_trans, lt_of_not_lt_of_ne]
/-! ## Operations -/

/-- The map without bindings. -/
def empty : StringMap α := ⟨[], List.Pairwise.nil⟩

instance : Inhabited (StringMap α) := ⟨empty⟩

/-- Bind a key, over any binding it already has. -/
def insert (map : StringMap α) (key : String) (value : α) : StringMap α :=
  ⟨insertEntry key value map.entries, ascending_insertEntry key value map.ascending⟩

/-- The value a key is bound to. -/
def find? (map : StringMap α) (key : String) : Option α :=
  map.entries.lookup key

/-- Whether a key is bound. -/
def contains (map : StringMap α) (key : String) : Bool :=
  (map.find? key).isSome

/-- The bound keys, ascending. -/
def keys (map : StringMap α) : List String :=
  map.entries.map Prod.fst

/-- The map that binds each key to the last value the list gives it. -/
def ofList (entries : List (String × α)) : StringMap α :=
  entries.foldl (fun map entry => map.insert entry.1 entry.2) empty

/-! ## The view through `find?` -/

theorem find?_empty (key : String) : (empty : StringMap α).find? key = none := rfl

/-- An insertion is seen at its own key and leaves every other key as it was. -/
theorem find?_insert (map : StringMap α) (key : String) (value : α) (probe : String) :
    (map.insert key value).find? probe = if probe = key then some value else map.find? probe := by
  obtain ⟨entries, ascending⟩ := map
  simp only [find?, insert]
  induction entries with
  | nil =>
      simp only [insertEntry, List.lookup_cons, List.lookup_nil]
      split <;> simp_all
  | cons head rest ih =>
      obtain ⟨other, held⟩ := head
      have restAscending := (List.pairwise_cons.mp ascending).2
      have step := ih restAscending
      simp only [insertEntry]
      split
      next => simp only [List.lookup_cons]; split <;> simp_all
      next =>
        split
        next same => subst same; simp only [List.lookup_cons]; split <;> simp_all
        next different =>
          simp only [List.lookup_cons, step]
          split
          next atOther =>
            have : probe = other := by simpa using atOther
            subst this
            simp [Ne.symm different]
          next => rfl

end StringMap

end SwarmManager
