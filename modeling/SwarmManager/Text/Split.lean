/-!
# Splitting a text at a separator

Addresses split at their last colon, label filters at their first equals sign,
paths at every slash.  The main statements say that the two parts and the
separator give the text back, and on which side of the cut no separator is left.
-/

namespace SwarmManager.Text

set_option autoImplicit false

/-- The parts before and after the first separator. -/
def splitFirst (separator : Char) : List Char → Option (List Char × List Char)
  | [] => none
  | character :: rest =>
      if character = separator then some ([], rest)
      else (splitFirst separator rest).map fun parts => (character :: parts.1, parts.2)

/-- The parts before and after the last separator. -/
def splitLast (separator : Char) : List Char → Option (List Char × List Char)
  | [] => none
  | character :: rest =>
      match splitLast separator rest with
      | some parts => some (character :: parts.1, parts.2)
      | none => if character = separator then some ([], rest) else none

/-- The parts between separators; one part when there is no separator. -/
def splitAll (separator : Char) : List Char → List (List Char)
  | [] => [[]]
  | character :: rest =>
      if character = separator then [] :: splitAll separator rest
      else
        match splitAll separator rest with
        | [] => [[character]]
        | part :: parts => (character :: part) :: parts

/-- `splitFirst` on a string. -/
def splitAtFirst (separator : Char) (text : String) : Option (String × String) :=
  (splitFirst separator text.toList).map fun parts =>
    (String.ofList parts.1, String.ofList parts.2)

/-- `splitLast` on a string. -/
def splitAtLast (separator : Char) (text : String) : Option (String × String) :=
  (splitLast separator text.toList).map fun parts =>
    (String.ofList parts.1, String.ofList parts.2)

/-- The parts of a split at the first separator give the text back, and the
first part holds no separator. -/
theorem splitFirst_eq_some {separator : Char} {text before after : List Char}
    (cut : splitFirst separator text = some (before, after)) :
    text = before ++ separator :: after ∧ separator ∉ before := by
  induction text generalizing before after with
  | nil => simp [splitFirst] at cut
  | cons character rest ih =>
      simp only [splitFirst] at cut
      split at cut
      next same =>
        simp only [Option.some.injEq, Prod.mk.injEq] at cut
        obtain ⟨rfl, rfl⟩ := cut
        exact ⟨by simp [same], by simp⟩
      next different =>
        obtain ⟨parts, found, glued⟩ := Option.map_eq_some_iff.mp cut
        simp only [Prod.mk.injEq] at glued
        obtain ⟨rfl, rfl⟩ := glued
        obtain ⟨whole, absent⟩ := ih found
        refine ⟨by rw [whole]; rfl, ?_⟩
        simp only [List.mem_cons, not_or]
        exact ⟨fun same => different same.symm, absent⟩

/-- A text splits at its first separator unless it has none. -/
theorem splitFirst_eq_none {separator : Char} {text : List Char} :
    splitFirst separator text = none ↔ separator ∉ text := by
  induction text with
  | nil => simp [splitFirst]
  | cons character rest ih =>
      rw [splitFirst, List.mem_cons, not_or]
      split
      next same => simp [same]
      next different => simp [ih, Ne.symm different]

/-- A text splits at a separator before which there is no other. -/
theorem splitFirst_append {separator : Char} {before : List Char} (absent : separator ∉ before)
    (after : List Char) :
    splitFirst separator (before ++ separator :: after) = some (before, after) := by
  induction before with
  | nil => simp only [List.nil_append, splitFirst, if_true]
  | cons character rest ih =>
      rw [List.mem_cons, not_or] at absent
      obtain ⟨different, missing⟩ := absent
      simp only [List.cons_append, splitFirst, if_neg (Ne.symm different), ih missing,
        Option.map_some]

/-- Two texts with a first separator are the same only if both parts are. -/
theorem append_first_inj {separator : Char} {before other after behind : List Char}
    (absent : separator ∉ before) (missing : separator ∉ other)
    (same : before ++ separator :: after = other ++ separator :: behind) :
    before = other ∧ after = behind := by
  have cut := congrArg (splitFirst separator) same
  rw [splitFirst_append absent, splitFirst_append missing] at cut
  exact Prod.mk.inj (Option.some.inj cut)

/-- A text splits at its last separator unless it has none. -/
theorem splitLast_eq_none {separator : Char} {text : List Char} :
    splitLast separator text = none ↔ separator ∉ text := by
  induction text with
  | nil => simp [splitLast]
  | cons character rest ih =>
      simp only [splitLast]
      cases found : splitLast separator rest with
      | some parts =>
          have present : separator ∈ rest := by
            rcases Classical.em (separator ∈ rest) with inside | outside
            · exact inside
            · rw [ih.mpr outside] at found; exact absurd found (by simp)
          simp [present]
      | none =>
          have outside := ih.mp found
          by_cases same : character = separator
          · simp [same]
          · simp [same, outside, Ne.symm same]

/-- The parts of a split at the last separator give the text back, and the last
part holds no separator. -/
theorem splitLast_eq_some {separator : Char} {text before after : List Char}
    (cut : splitLast separator text = some (before, after)) :
    text = before ++ separator :: after ∧ separator ∉ after := by
  induction text generalizing before after with
  | nil => simp [splitLast] at cut
  | cons character rest ih =>
      simp only [splitLast] at cut
      cases found : splitLast separator rest with
      | some parts =>
          simp only [found, Option.some.injEq, Prod.mk.injEq] at cut
          obtain ⟨rfl, rfl⟩ := cut
          obtain ⟨whole, absent⟩ := ih found
          exact ⟨by rw [whole]; rfl, absent⟩
      | none =>
          simp only [found] at cut
          split at cut
          next same =>
            simp only [Option.some.injEq, Prod.mk.injEq] at cut
            obtain ⟨rfl, rfl⟩ := cut
            exact ⟨by simp [same], splitLast_eq_none.mp found⟩
          next => simp at cut

/-- A text splits at a separator after which there is no other. -/
theorem splitLast_append {separator : Char} {after : List Char} (absent : separator ∉ after)
    (before : List Char) :
    splitLast separator (before ++ separator :: after) = some (before, after) := by
  induction before with
  | nil => simp only [List.nil_append, splitLast, splitLast_eq_none.mpr absent, if_true]
  | cons character rest ih => simp only [List.cons_append, splitLast, ih]

/-- So the parts of a string are those around a separator behind which there is no other. -/
theorem splitAtLast_eq_some {separator : Char} {text before after : String} :
    splitAtLast separator text = some (before, after) ↔
      text.toList = before.toList ++ separator :: after.toList ∧ separator ∉ after.toList := by
  rw [splitAtLast, Option.map_eq_some_iff]
  constructor
  · rintro ⟨parts, cut, same⟩
    obtain ⟨rfl, rfl⟩ := Prod.mk.inj same
    rw [String.toList_ofList, String.toList_ofList]
    exact splitLast_eq_some cut
  · rintro ⟨whole, absent⟩
    refine ⟨(before.toList, after.toList), ?_, by simp⟩
    rw [whole, splitLast_append absent]

theorem splitAtLast_eq_none {separator : Char} {text : String} :
    splitAtLast separator text = none ↔ separator ∉ text.toList := by
  rw [splitAtLast, Option.map_eq_none_iff, splitLast_eq_none]

/-- Two texts with a last separator are the same only if both parts are. -/
theorem append_last_inj {separator : Char} {before other after behind : List Char}
    (absent : separator ∉ after) (missing : separator ∉ behind)
    (same : before ++ separator :: after = other ++ separator :: behind) :
    before = other ∧ after = behind := by
  have cut := congrArg (splitLast separator) same
  rw [splitLast_append absent, splitLast_append missing] at cut
  exact Prod.mk.inj (Option.some.inj cut)

/-- A text without a separator has one part. -/
theorem splitAll_of_notMem {separator : Char} {text : List Char} (absent : separator ∉ text) :
    splitAll separator text = [text] := by
  induction text with
  | nil => rfl
  | cons character rest ih =>
      rw [List.mem_cons, not_or] at absent
      obtain ⟨different, missing⟩ := absent
      simp only [splitAll, if_neg (Ne.symm different), ih missing]

theorem splitAll_ne_nil (separator : Char) (text : List Char) : splitAll separator text ≠ [] := by
  cases text with
  | nil => exact List.cons_ne_nil _ _
  | cons character rest =>
      rw [splitAll]
      split
      · exact List.cons_ne_nil _ _
      · split <;> exact List.cons_ne_nil _ _

/-- The parts of two texts with a separator between them are those of the one and of the
other. -/
theorem splitAll_join (separator : Char) (before after : List Char) :
    splitAll separator (before ++ separator :: after) =
      splitAll separator before ++ splitAll separator after := by
  induction before with
  | nil => simp only [List.nil_append, splitAll, if_true, List.cons_append]
  | cons character rest ih =>
      rw [List.cons_append, splitAll, splitAll, ih]
      split
      next => rfl
      next =>
        cases parts : splitAll separator rest with
        | nil => exact absurd parts (splitAll_ne_nil separator rest)
        | cons part others => rfl

/-- The first part of a text ends at the first separator. -/
theorem splitAll_append {separator : Char} {before : List Char} (absent : separator ∉ before)
    (after : List Char) :
    splitAll separator (before ++ separator :: after) = before :: splitAll separator after := by
  rw [splitAll_join, splitAll_of_notMem absent, List.singleton_append]

end SwarmManager.Text
