import SwarmManager.Time.Codec

/-!
# Timestamps that were written

A timestamp is read back as the instant it was written for, to the nanosecond and
with its leap second: `Rfc3339.read?_write`.  So it is for the years of four digits,
and for those that are written with a sign.

Each part of a timestamp is read back with whatever follows it.  A numeral ends
where its width is used up or where the next character is no digit, and no part
begins with white space.
-/

namespace SwarmManager

set_option autoImplicit false

/-! ## Numerals of a width -/

namespace Decimal

/-- A number below a power of ten has no more digits than the exponent says. -/
theorem length_digits_le {width number : Nat} (positive : 0 < width)
    (small : number < Nat.pow 10 width) : (digits number).length ≤ width := by
  induction width generalizing number with
  | zero => exact absurd positive (Nat.lt_irrefl 0)
  | succ width ih =>
      rw [digits]
      split
      next => exact Nat.succ_le_succ (Nat.zero_le width)
      next large =>
        have scaled : number < Nat.pow 10 width * 10 := small
        have tenth : number / 10 < Nat.pow 10 width := by omega
        have positiveRest : 0 < width := by
          rcases Nat.eq_zero_or_pos width with rfl | more
          · have one : Nat.pow 10 0 = 1 := rfl
            omega
          · exact more
        have shorter := ih positiveRest tenth
        rw [List.length_append, List.length_singleton]
        exact Nat.succ_le_succ shorter

/-- A padded numeral is as long as its width. -/
theorem length_padded {width number : Nat} (positive : 0 < width)
    (small : number < Nat.pow 10 width) : (padded width number).length = width := by
  have fits := length_digits_le positive small
  simp only [padded, List.length_append, List.length_replicate]
  omega

theorem padded_ne_nil (width number : Nat) : padded width number ≠ [] := by
  rw [padded]
  exact List.append_ne_nil_of_right_ne_nil _ (digits_ne_nil number)

/-- Digits are taken up to the width or up to what is no digit. -/
theorem takeDigits_append {width : Nat} {numeral rest : List Char}
    (digits : numeral.all isDigit = true) (fits : numeral.length ≤ width)
    (stops : numeral.length = width ∨ ∀ next ∈ rest.head?, isDigit next = false) :
    takeDigits width (numeral ++ rest) = (numeral, rest) := by
  induction numeral generalizing width with
  | nil =>
      cases width with
      | zero => rfl
      | succ width =>
          have ends := stops.resolve_left (Nat.succ_ne_zero width).symm
          cases rest with
          | nil => rfl
          | cons next rest =>
              have noDigit := ends next rfl
              simp [takeDigits, noDigit]
  | cons first more ih =>
      rw [List.all_cons, Bool.and_eq_true] at digits
      cases width with
      | zero => exact absurd fits (Nat.not_succ_le_zero _)
      | succ width =>
          have later := ih digits.2 (Nat.le_of_succ_le_succ fits)
            (stops.imp_left Nat.succ.inj)
          simp [takeDigits, digits.1, later]

end Decimal

namespace Rfc3339

open SwarmManager.Text (skipWhiteSpace isWhiteSpace)

/-! ## The parts of a timestamp -/

theorem isWhiteSpace_of_isDigit {character : Char} (digit : Decimal.isDigit character = true) :
    isWhiteSpace character = false := by
  simp only [Decimal.isDigit, Bool.and_eq_true, decide_eq_true_eq] at digit
  simp only [isWhiteSpace, Bool.or_eq_false_iff, Bool.and_eq_false_iff, decide_eq_false_iff_not,
    beq_eq_false_iff_ne]
  omega

theorem skipWhiteSpace_cons {character : Char} (solid : isWhiteSpace character = false)
    (rest : List Char) : skipWhiteSpace (character :: rest) = character :: rest := by
  rw [skipWhiteSpace, List.dropWhile_cons, solid]
  rfl

/-- No white space stands before a padded numeral. -/
theorem skipWhiteSpace_padded (width number : Nat) (rest : List Char) :
    skipWhiteSpace (Decimal.padded width number ++ rest) =
      Decimal.padded width number ++ rest := by
  have digits := Decimal.all_isDigit_padded width number
  obtain ⟨first, more, shape⟩ :=
    List.exists_cons_of_ne_nil (Decimal.padded_ne_nil width number)
  rw [shape, List.all_cons, Bool.and_eq_true] at digits
  rw [shape, List.cons_append, skipWhiteSpace_cons (isWhiteSpace_of_isDigit digits.1)]

/-- A padded numeral of at most the given width is read as its number. -/
theorem number_padded {width value : Nat} (positive : 0 < width)
    (small : value < Nat.pow 10 width) (rest : List Char) :
    number width (Decimal.padded width value ++ rest) = some (value, rest) := by
  have length := Decimal.length_padded positive small
  have taken : Decimal.takeDigits width (Decimal.padded width value ++ rest) =
      (Decimal.padded width value, rest) :=
    Decimal.takeDigits_append (Decimal.all_isDigit_padded width value) (Nat.le_of_eq length)
      (Or.inl length)
  rw [number, skipWhiteSpace_padded, taken]
  split
  next same => exact absurd (Prod.mk.inj same).1 (Decimal.padded_ne_nil width value)
  next same =>
    cases same
    rw [Decimal.value_padded]

theorem separator_cons {mark : Char} (solid : isWhiteSpace mark = false) (rest : List Char) :
    separator mark (mark :: rest) = some rest := by
  rw [separator, skipWhiteSpace_cons solid]
  exact if_pos rfl

/-- A year is read back, in four digits or with its sign, up to the hyphen behind
it. -/
theorem yearNumber_writeYear (year : Int) (later : List Char) :
    yearNumber (writeYear year ++ '-' :: later) = some (year, '-' :: later) := by
  generalize shape : '-' :: later = rest
  have ends : ∀ next ∈ rest.head?, Decimal.isDigit next = false := by
    intro next first
    rw [← shape] at first
    cases first
    decide
  have digits (number : Nat) := Decimal.all_isDigit_padded 4 number
  have signed (number : Nat) :
      Decimal.takeDigits (Decimal.padded 4 number ++ rest).length
        (Decimal.padded 4 number ++ rest) = (Decimal.padded 4 number, rest) :=
    Decimal.takeDigits_append (digits number) (by simp) (Or.inr ends)
  unfold writeYear
  split
  next plain =>
    have small : year.toNat < Nat.pow 10 4 := by
      have limit : Nat.pow 10 4 = 10000 := rfl
      omega
    have length := Decimal.length_padded (by decide) small
    have taken : Decimal.takeDigits 4 (Decimal.padded 4 year.toNat ++ rest) =
        (Decimal.padded 4 year.toNat, rest) :=
      Decimal.takeDigits_append (digits _) (Nat.le_of_eq length) (Or.inl length)
    obtain ⟨first, more, shape⟩ :=
      List.exists_cons_of_ne_nil (Decimal.padded_ne_nil 4 year.toNat)
    have firstDigit := digits year.toNat
    have value := Decimal.value_padded 4 year.toNat
    rw [yearNumber, skipWhiteSpace_padded]
    rw [shape] at taken firstDigit value ⊢
    rw [List.all_cons, Bool.and_eq_true] at firstDigit
    rw [List.cons_append] at taken ⊢
    split
    next same =>
      rw [(List.cons.inj same).1] at firstDigit
      exact absurd firstDigit.1 (by decide)
    next same =>
      rw [(List.cons.inj same).1] at firstDigit
      exact absurd firstDigit.1 (by decide)
    next =>
      rw [taken]
      show some ((Decimal.value (first :: more) : Int), rest) = some (year, rest)
      rw [value, Int.toNat_of_nonneg plain.1]
  next outside =>
    -- After either sign the digits are read in the same way.
    split
    all_goals
      rw [List.cons_append, yearNumber, skipWhiteSpace_cons (by decide)]
      simp only [signed]
      split
      next same => exact absurd (Prod.mk.inj same).1 (Decimal.padded_ne_nil 4 _)
      next same =>
        cases same
        rw [Decimal.value_padded]
        congr 2
        omega

/-- A fraction is read back, up to the letter behind it. -/
theorem fraction_writeFraction {nanosecond : Nat} (small : nanosecond < 1000000000) :
    fraction (writeFraction nanosecond ++ ['Z']) = some (nanosecond, ['Z']) := by
  have read {width value : Nat} (positive : 0 < width) (short : width ≤ 9)
      (fits : value < Nat.pow 10 width) :
      fraction ('.' :: Decimal.padded width value ++ ['Z']) =
        some (value * Nat.pow 10 (9 - width), ['Z']) := by
    have length := Decimal.length_padded positive fits
    have taken : Decimal.takeDigits 9 (Decimal.padded width value ++ ['Z']) =
        (Decimal.padded width value, ['Z']) :=
      Decimal.takeDigits_append (Decimal.all_isDigit_padded width value) (by omega)
        (Or.inr fun next first => by cases first; rfl)
    rw [List.cons_append, fraction, taken]
    split
    next same => exact absurd (Prod.mk.inj same).1 (Decimal.padded_ne_nil width value)
    next same =>
      cases same
      rw [Decimal.value_padded, length]
      rfl
  have thousand : Nat.pow 10 3 = 1000 := rfl
  have million : Nat.pow 10 6 = 1000000 := rfl
  have billion : Nat.pow 10 9 = 1000000000 := rfl
  unfold writeFraction
  split
  next zero =>
    rw [zero]
    rfl
  split
  next milli =>
    rw [read (by decide) (by decide) (by omega)]
    congr 2
    show nanosecond / 1000000 * 1000000 = nanosecond
    omega
  split
  next micro =>
    rw [read (by decide) (by decide) (by omega)]
    congr 2
    show nanosecond / 1000 * 1000 = nanosecond
    omega
  next =>
    rw [read (by decide) (by decide) (by omega)]
    congr 2
    show nanosecond * 1 = nanosecond
    omega

theorem timeOfDay?_plain {time : TimeOfDay} (plain : time.nanosecond < 1000000000) :
    timeOfDay? time.hour time.minute time.second time.nanosecond = some time := by
  rw [timeOfDay?, dif_pos ⟨time.hour_lt, time.minute_lt, plain⟩, dif_pos time.second_lt]

/-- The second 60 is read as the leap second it was written for. -/
theorem timeOfDay?_leap {time : TimeOfDay} (leap : 1000000000 ≤ time.nanosecond) :
    timeOfDay? time.hour time.minute (time.second + 1) (time.nanosecond - 1000000000) =
      some time := by
  obtain ⟨hour, minute, second, nanosecond, hour_lt, minute_lt, _, nanosecond_lt, last⟩ := time
  have end59 : second = 59 := last leap
  subst end59
  have short : nanosecond - 1000000000 < 1000000000 := by
    have := nanosecond_lt
    omega
  rw [timeOfDay?, dif_pos ⟨hour_lt, minute_lt, short⟩, dif_neg (Nat.lt_irrefl 60), if_pos rfl]
  simp only [Option.some.injEq, TimeOfDay.mk.injEq, true_and]
  exact Nat.add_sub_cancel' leap

end Rfc3339

/-- No month has more than thirty-one days. -/
theorem Calendar.daysInMonth_le (year : Int) (month : Nat) : daysInMonth year month ≤ 31 := by
  unfold daysInMonth
  split
  · split <;> decide
  · split
    · decide
    · split <;> decide

theorem Date.ofNumbers?_self (date : Date) :
    Date.ofNumbers? date.year date.month date.day = some date := by
  rw [Date.ofNumbers?, dif_pos date.exists_month, dif_pos date.exists_day]

theorem Instant.ofLocal?_zero {date : Date} (time : TimeOfDay)
    (dated : Calendar.yearInRange date.year = true) :
    ofLocal? date time 0 = some ⟨date, time, dated⟩ := by
  have hour_lt := time.hour_lt
  have minute_lt := time.minute_lt
  have early : ¬ ((time.hour * 60 + time.minute : Nat) - 0 : Int) < 0 := by omega
  have late : ¬ (1440 : Int) ≤ ((time.hour * 60 + time.minute : Nat) - 0 : Int) := by omega
  simp only [ofLocal?, if_neg early, if_neg late]
  refine Eq.trans (congrArg (at? date) ?_) (dif_pos dated)
  obtain ⟨hour, minute, second, nanosecond⟩ := time
  simp only [TimeOfDay.mk.injEq, and_true]
  simp only at hour_lt minute_lt
  omega

namespace Rfc3339

open SwarmManager.Text (skipWhiteSpace isWhiteSpace)

/-- The parts of a timestamp, put together, are read as its instant. -/
theorem readChars?_parts {date : Date} {time : TimeOfDay} {second nanosecond : Nat}
    (dated : Calendar.yearInRange date.year = true) (small : second < 100)
    (fine : nanosecond < 1000000000)
    (shows : timeOfDay? time.hour time.minute second nanosecond = some time) :
    readChars? (writeYear date.year ++ '-' :: Decimal.padded 2 date.month ++
      '-' :: Decimal.padded 2 date.day ++ 'T' :: Decimal.padded 2 time.hour ++
      ':' :: Decimal.padded 2 time.minute ++ ':' :: Decimal.padded 2 second ++
      writeFraction nanosecond ++ ['Z']) = some ⟨date, time, dated⟩ := by
  have two {value : Nat} (below : value < 100) (rest : List Char) :
      number 2 (Decimal.padded 2 value ++ rest) = some (value, rest) :=
    number_padded (by decide) below rest
  have month : date.month < 100 := Nat.lt_of_le_of_lt date.exists_month.2 (by decide)
  have day : date.day < 100 :=
    Nat.lt_of_le_of_lt (Nat.le_trans date.exists_day.2 (Calendar.daysInMonth_le _ _)) (by decide)
  have hour : time.hour < 100 := Nat.lt_trans time.hour_lt (by decide)
  have minute : time.minute < 100 := Nat.lt_trans time.minute_lt (by decide)
  have hyphen : isWhiteSpace '-' = false := rfl
  have colon : isWhiteSpace ':' = false := rfl
  have zulu : offset ['Z'] = some (0, []) := rfl
  have nothing : (skipWhiteSpace []).isEmpty = true := rfl
  have goOn {α β : Type} (found : α) (rest : α → Option β) : (some found >>= rest) = rest found :=
    rfl
  simp only [List.append_assoc, List.cons_append, readChars?, goOn, yearNumber_writeYear,
    separator_cons hyphen, two month, two day]
  show (number 2 _ >>= _) = _
  simp only [goOn, two hour, separator_cons colon, two minute, two small,
    fraction_writeFraction fine, zulu, nothing, shows, dated, Date.ofNumbers?_self,
    Instant.ofLocal?_zero time dated]
  rfl

/-- **A timestamp is read back as the instant it was written for.** -/
theorem readChars?_writeChars (instant : Instant) :
    readChars? (writeChars instant) = some instant := by
  unfold writeChars
  by_cases leap : 1000000000 ≤ instant.time.nanosecond
  · have last := instant.time.leap leap
    have short := instant.time.nanosecond_lt
    simp only [if_pos leap]
    exact readChars?_parts instant.dated (by omega) (by omega) (timeOfDay?_leap leap)
  · have short := instant.time.second_lt
    simp only [if_neg leap]
    exact readChars?_parts instant.dated (by omega) (by omega) (timeOfDay?_plain (by omega))

theorem read?_write (instant : Instant) : read? (write instant) = some instant := by
  rw [read?, write, String.toList_ofList, readChars?_writeChars]

end Rfc3339

end SwarmManager
