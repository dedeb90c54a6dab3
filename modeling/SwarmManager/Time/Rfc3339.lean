import SwarmManager.Text.Blank
import SwarmManager.Text.Decimal
import SwarmManager.Time.Instant

/-!
# Timestamps as text

Instants are written as RFC 3339 timestamps in UTC: a `Z` at the end, and no,
three, six or nine digits of fraction, as few as show the instant.  A year
outside the four digits is written with its sign.

They are read by a relaxed rule.  White space may stand before each number and
between the parts, the date and the time are parted by a `t`, a `T` or a space,
the fraction is cut after nine digits, and the offset is a `Z`, the letters
`UTC`, or a sign with hours and minutes.
-/

namespace SwarmManager.Rfc3339

set_option autoImplicit false

open SwarmManager.Text (skipWhiteSpace isWhiteSpace)

/-! ## Writing -/

/-- The year: four digits, or a sign and at least four digits. -/
def writeYear (year : Int) : List Char :=
  if 0 ≤ year ∧ year ≤ 9999 then Decimal.padded 4 year.toNat
  else (if year < 0 then '-' else '+') :: Decimal.padded 4 year.natAbs

/-- The fraction of a second, in the fewest groups of three digits. -/
def writeFraction (nanosecond : Nat) : List Char :=
  if nanosecond = 0 then []
  else if nanosecond % 1000000 = 0 then '.' :: Decimal.padded 3 (nanosecond / 1000000)
  else if nanosecond % 1000 = 0 then '.' :: Decimal.padded 6 (nanosecond / 1000)
  else '.' :: Decimal.padded 9 nanosecond

/-- The timestamp of an instant, as characters.  A leap second is the second 60. -/
def writeChars (instant : Instant) : List Char :=
  let date := instant.date
  let time := instant.time
  let inLeap := 1000000000 ≤ time.nanosecond
  let second := if inLeap then time.second + 1 else time.second
  let fraction := if inLeap then time.nanosecond - 1000000000 else time.nanosecond
  writeYear date.year ++ '-' :: Decimal.padded 2 date.month ++ '-' :: Decimal.padded 2 date.day ++
    'T' :: Decimal.padded 2 time.hour ++ ':' :: Decimal.padded 2 time.minute ++
    ':' :: Decimal.padded 2 second ++ writeFraction fraction ++ ['Z']

/-- The timestamp of an instant. -/
def write (instant : Instant) : String := String.ofList (writeChars instant)

/-! ## Reading -/

/-- A number of at most `width` digits after optional white space, and the rest. -/
def number (width : Nat) (text : List Char) : Option (Nat × List Char) :=
  match Decimal.takeDigits width (skipWhiteSpace text) with
  | ([], _) => none
  | (numeral, rest) => some (Decimal.value numeral, rest)

/-- A year after optional white space: any number of digits after a sign, else at
most four. -/
def yearNumber (text : List Char) : Option (Int × List Char) :=
  match skipWhiteSpace text with
  | '-' :: rest =>
      match Decimal.takeDigits rest.length rest with
      | ([], _) => none
      | (numeral, after) => some (-(Decimal.value numeral : Int), after)
  | '+' :: rest =>
      match Decimal.takeDigits rest.length rest with
      | ([], _) => none
      | (numeral, after) => some ((Decimal.value numeral : Int), after)
  | unsigned =>
      match Decimal.takeDigits 4 unsigned with
      | ([], _) => none
      | (numeral, after) => some ((Decimal.value numeral : Int), after)

/-- A separator after optional white space, and the rest. -/
def separator (wanted : Char) (text : List Char) : Option (List Char) :=
  match skipWhiteSpace text with
  | character :: rest => if character = wanted then some rest else none
  | [] => none

/-- The nanoseconds of an optional fraction, and the rest.  Digits after the
ninth are skipped. -/
def fraction (text : List Char) : Option (Nat × List Char) :=
  match text with
  | '.' :: rest =>
      match Decimal.takeDigits 9 rest with
      | ([], _) => none
      | (numeral, after) =>
          some (Decimal.value numeral * Nat.pow 10 (9 - numeral.length),
            after.dropWhile Decimal.isDigit)
  | _ => some (0, text)

/-- The minutes of an offset and the rest. -/
def offsetMinutes (text : List Char) : Option (Nat × List Char) :=
  match text with
  | tens :: ones :: rest =>
      if Decimal.isDigit tens && Decimal.isDigit ones && Decimal.digitValue tens ≤ 5 then
        some (Decimal.value [tens, ones], rest)
      else none
  | _ => none

/-- An offset of hours and minutes after its sign, in minutes, and the rest. -/
def offsetDigits (text : List Char) : Option (Nat × List Char) :=
  match text with
  | tens :: ones :: rest =>
      if Decimal.isDigit tens && Decimal.isDigit ones then
        let colonless := rest.dropWhile fun character => character == ':' || isWhiteSpace character
        (offsetMinutes colonless).map fun minutes =>
          (Decimal.value [tens, ones] * 60 + minutes.1, minutes.2)
      else none
  | _ => none

/-- The offset from UTC in minutes after optional white space, and the rest. -/
def offset (text : List Char) : Option (Int × List Char) :=
  match skipWhiteSpace text with
  | u :: t :: c :: rest =>
      if (u == 'U' || u == 'u') && (t == 'T' || t == 't') && (c == 'C' || c == 'c') then
        some (0, rest)
      else signed (u :: t :: c :: rest)
  | short => signed short
where
  /-- A `Z`, or a sign with hours and minutes. -/
  signed : List Char → Option (Int × List Char)
    | 'Z' :: rest => some (0, rest)
    | 'z' :: rest => some (0, rest)
    | '+' :: rest => (offsetDigits rest).map fun taken => ((taken.1 : Int), taken.2)
    | '-' :: rest => (offsetDigits rest).map fun taken => (-(taken.1 : Int), taken.2)
    | '−' :: rest => (offsetDigits rest).map fun taken => (-(taken.1 : Int), taken.2)
    | _ => none

/-- The time of day with the given numbers.  The second 60 is the leap second of
the second 59. -/
def timeOfDay? (hour minute second nanosecond : Nat) : Option TimeOfDay :=
  if within : hour < 24 ∧ minute < 60 ∧ nanosecond < 1000000000 then
    if plain : second < 60 then
      some ⟨hour, minute, second, nanosecond, within.1, within.2.1, plain, by omega, by omega⟩
    else if second = 60 then
      some ⟨hour, minute, 59, 1000000000 + nanosecond, within.1, within.2.1, by omega, by omega,
        by omega⟩
    else none
  else none

/-- The instant a timestamp shows. -/
def readChars? (text : List Char) : Option Instant := do
  let (year, text) ← yearNumber text
  let text ← separator '-' text
  let (month, text) ← number 2 text
  let text ← separator '-' text
  let (day, text) ← number 2 text
  let text ←
    match text with
    | character :: rest =>
        if character == 't' || character == 'T' || character == ' ' then some rest else none
    | [] => none
  let (hour, text) ← number 2 text
  let text ← separator ':' text
  let (minute, text) ← number 2 text
  let text ← separator ':' text
  let (second, text) ← number 2 text
  let (nanosecond, text) ← fraction text
  let (minutes, text) ← offset text
  if !(skipWhiteSpace text).isEmpty then none
  let time ← timeOfDay? hour minute second nanosecond
  if !Calendar.yearInRange year then none
  let date ← Date.ofNumbers? year month day
  if minutes ≤ -1440 ∨ 1440 ≤ minutes then none
  Instant.ofLocal? date time minutes

/-- The instant a timestamp shows, from a string. -/
def read? (text : String) : Option Instant := readChars? text.toList

end SwarmManager.Rfc3339
