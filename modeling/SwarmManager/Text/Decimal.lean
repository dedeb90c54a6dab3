/-!
# Decimal numerals

Counts, ports and indices are written in decimal without leading zeros, and read
with any.  The main statements are `value_digits`, that a written numeral reads
back, and `digits_inj`.
-/

namespace SwarmManager.Decimal

set_option autoImplicit false

/-- The ASCII digit of a number below ten. -/
def digit (number : Nat) : Char := Char.ofNat (48 + number)

/-- Whether a character is one of the ten ASCII digits. -/
def isDigit (character : Char) : Bool :=
  48 ≤ character.toNat && character.toNat ≤ 57

/-- The number an ASCII digit stands for. -/
def digitValue (character : Char) : Nat := character.toNat - 48

/-- The numeral of a number, without leading zeros. -/
def digits (number : Nat) : List Char :=
  if number < 10 then [digit number] else digits (number / 10) ++ [digit (number % 10)]

/-- The numeral of a number as a string. -/
def text (number : Nat) : String := String.ofList (digits number)

/-- The numeral of a number, padded on the left with zeros to a width. -/
def padded (width number : Nat) : List Char :=
  let numeral := digits number
  List.replicate (width - numeral.length) '0' ++ numeral

/-- The number a list of digits stands for. -/
def value (numeral : List Char) : Nat :=
  numeral.foldl (fun total character => total * 10 + digitValue character) 0

/-- Read a numeral that takes up the whole text. -/
def read? (numeral : List Char) : Option Nat :=
  if numeral.isEmpty || !numeral.all isDigit then none else some (value numeral)

/-- The longest start of a text that holds only digits, of at most `width`
characters, and what follows it. -/
def takeDigits : Nat → List Char → List Char × List Char
  | 0, rest => ([], rest)
  | _ + 1, [] => ([], [])
  | width + 1, character :: rest =>
      if isDigit character then
        let taken := takeDigits width rest
        (character :: taken.1, taken.2)
      else ([], character :: rest)

/-! ## A written numeral reads back -/

theorem toNat_digit {number : Nat} (small : number < 10) :
    (digit number).toNat = 48 + number := by
  have valid : (48 + number).isValidChar := Or.inl (by omega)
  rw [digit, Char.ofNat, dif_pos valid]
  rfl

theorem digitValue_digit {number : Nat} (small : number < 10) :
    digitValue (digit number) = number := by
  rw [digitValue, toNat_digit small]
  omega

theorem isDigit_digit {number : Nat} (small : number < 10) : isDigit (digit number) = true := by
  simp only [isDigit, toNat_digit small, Bool.and_eq_true, decide_eq_true_eq]
  omega

theorem value_append_singleton (numeral : List Char) (character : Char) :
    value (numeral ++ [character]) = value numeral * 10 + digitValue character := by
  simp only [value, List.foldl_append, List.foldl_cons, List.foldl_nil]

/-- A written numeral reads back as the number it was written for. -/
theorem value_digits (number : Nat) : value (digits number) = number := by
  induction number using Nat.strongRecOn with
  | ind number ih =>
      rw [digits]
      split
      next small => simp [value, digitValue_digit small]
      next large =>
        rw [value_append_singleton, ih (number / 10) (by omega),
          digitValue_digit (Nat.mod_lt _ (by omega))]
        omega

theorem digits_ne_nil (number : Nat) : digits number ≠ [] := by
  rw [digits]
  split <;> simp

/-- A written numeral holds only digits. -/
theorem all_isDigit_digits (number : Nat) : (digits number).all isDigit = true := by
  induction number using Nat.strongRecOn with
  | ind number ih =>
      rw [digits]
      split
      next small => simp [isDigit_digit small]
      next large =>
        simp [List.all_append, ih (number / 10) (by omega), isDigit_digit (Nat.mod_lt _ (by omega))]

/-- So it holds no other character. -/
theorem notMem_digits {character : Char} (other : isDigit character = false) (number : Nat) :
    character ∉ digits number := by
  intro inside
  have digit := List.all_eq_true.mp (all_isDigit_digits number) character inside
  exact Bool.false_ne_true (other.symm.trans digit)

/-- Only zero is written with a zero in front. -/
theorem head?_digits_ne {number : Nat} (positive : 0 < number) :
    (digits number).head? ≠ some '0' := by
  induction number using Nat.strongRecOn with
  | ind number ih =>
      rw [digits]
      split
      next small =>
        intro same
        have code := congrArg (Option.map Char.toNat) same
        simp only [List.head?_cons, Option.map_some, toNat_digit small, Option.some.injEq] at code
        have zero : '0'.toNat = 48 := rfl
        omega
      next large =>
        have shorter := ih (number / 10) (by omega) (by omega)
        obtain ⟨first, more, shape⟩ := List.exists_cons_of_ne_nil (digits_ne_nil (number / 10))
        rw [shape] at shorter ⊢
        exact shorter

/-- Digits are read, if there is any, and nothing else. -/
theorem read?_eq_some {numeral : List Char} {number : Nat} :
    read? numeral = some number ↔
      numeral ≠ [] ∧ (∀ character ∈ numeral, isDigit character = true) ∧
        value numeral = number := by
  rw [read?]
  split
  next refused =>
    refine iff_of_false nofun fun ⟨nonempty, digits, _⟩ => ?_
    rw [List.isEmpty_eq_false_iff.mpr nonempty, List.all_eq_true.mpr digits] at refused
    cases refused
  next accepted =>
    rw [Bool.or_eq_true, not_or, List.isEmpty_iff, Bool.not_eq_true', Bool.not_eq_false,
      List.all_eq_true] at accepted
    rw [Option.some.injEq, and_iff_right accepted.1, and_iff_right accepted.2]

/-- Different numbers have different numerals. -/
theorem digits_inj {left right : Nat} (same : digits left = digits right) : left = right := by
  rw [← value_digits left, ← value_digits right, same]

/-! ## Padding -/

/-- Leading zeros count nothing. -/
theorem value_replicate_append (count : Nat) (numeral : List Char) :
    value (List.replicate count '0' ++ numeral) = value numeral := by
  induction count with
  | zero => rfl
  | succ count ih => exact ih

theorem value_padded (width number : Nat) : value (padded width number) = number := by
  rw [padded, value_replicate_append, value_digits]

theorem all_isDigit_padded (width number : Nat) : (padded width number).all isDigit = true := by
  simp only [padded, List.all_append, all_isDigit_digits, Bool.and_true, List.all_replicate]
  split <;> rfl

end SwarmManager.Decimal
