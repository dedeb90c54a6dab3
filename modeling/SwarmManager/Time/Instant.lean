import SwarmManager.Time.Date

/-!
# Instants

An instant is a date and a time of day in UTC, to the nanosecond.  A minute may
end in a leap second: the second 59 then lasts up to two billion nanoseconds.  The
years of instants are those that can be dated.
-/

namespace SwarmManager

set_option autoImplicit false

/-- A time of day.  From the billionth nanosecond of a second 59 on, it lies in a
leap second. -/
structure TimeOfDay where
  hour : Nat
  minute : Nat
  second : Nat
  nanosecond : Nat
  hour_lt : hour < 24
  minute_lt : minute < 60
  second_lt : second < 60
  nanosecond_lt : nanosecond < 2000000000
  leap : 1000000000 ≤ nanosecond → second = 59
  deriving DecidableEq

/-- A moment in UTC. -/
structure Instant where
  date : Date
  time : TimeOfDay
  dated : Calendar.yearInRange date.year = true
  deriving DecidableEq

namespace Instant

/-- The first moment of 1970. -/
def epoch : Instant :=
  ⟨⟨1970, 1, 1, by decide, by decide⟩,
    ⟨0, 0, 0, 0, by decide, by decide, by decide, by decide, by decide⟩, by decide⟩

/-- The instant of a date and a time of day, if the year can be dated. -/
def at? (date : Date) (time : TimeOfDay) : Option Instant :=
  if dated : Calendar.yearInRange date.year = true then some ⟨date, time, dated⟩ else none

/-- The instant shown by a clock that is `offset` minutes ahead of UTC, which is
less than a day ahead or behind, when it shows the given date and time. -/
def ofLocal? (date : Date) (time : TimeOfDay) (offset : Int) : Option Instant :=
  let minutes : Int := (time.hour * 60 + time.minute : Nat) - offset
  let ofDay := (minutes % 1440).toNat
  let shifted : TimeOfDay :=
    { time with
      hour := ofDay / 60
      minute := ofDay % 60
      hour_lt := by omega
      minute_lt := by omega }
  let day := if minutes < 0 then date.previous else if 1440 ≤ minutes then date.next else date
  at? day shifted

end Instant

end SwarmManager
