/-!
# Clock readings

An instant is counted in seconds and nanoseconds from the start of 1970 in universal time
(`Instant`); a leap second is the last second of a minute with more than a thousand million
nanoseconds. Structured records show an instant in milliseconds (`Instant.millis`), console lines
show a time of day (`TimeOfDay.text`), and backups of a log file carry a calendar date and a time
(`Timestamp`).
-/

set_option autoImplicit false
set_option relaxedAutoImplicit false

namespace Logbook

/-- A natural in decimal digits, filled with zeros at the left. -/
def padded (width n : Nat) : String :=
  let ds := Nat.toDigits 10 n
  String.ofList (List.replicate (width - ds.length) '0' ++ ds)

/-! ### Instants -/

/-- A moment in universal time. -/
structure Instant where
  seconds : Int
  nanos : Nat
  deriving DecidableEq, Repr, Inhabited

namespace Instant

/-- How many days the first of January of a year lies after the first of January 1970. -/
def daysToYear (year : Int) : Int :=
  let y := year - 1
  365 * (year - 1970) + (y / 4 - y / 100 + y / 400) - 477

/-- The first year of the calendar. -/
def firstYear : Int := -262143

/-- The last year of the calendar. -/
def lastYear : Int := 262142

/-- Whether the calendar has a moment: its day lies in a year of the calendar, and only the last
second of a minute may be a leap second. -/
def isValid (t : Instant) : Bool :=
  let day := t.seconds / 86400
  decide (daysToYear firstYear ≤ day ∧ day < daysToYear (lastYear + 1)) &&
    (decide (t.nanos < 1000000000) || (decide (t.nanos < 2 * 1000000000) && t.seconds % 60 == 59))

/-- Nanoseconds since the start of 1970. -/
def totalNanos (t : Instant) : Int :=
  t.seconds * 1000000000 + t.nanos

/-- Milliseconds since the start of 1970. Where the nanoseconds fit in a signed 64-bit word they
are divided and truncated toward zero; beyond, whole milliseconds are added to the seconds. -/
def millis (t : Instant) : Int :=
  if -0x8000000000000000 ≤ t.totalNanos ∧ t.totalNanos < 0x8000000000000000 then
    t.totalNanos.tdiv 1000000
  else t.seconds * 1000 + (t.nanos / 1000000 : Nat)

end Instant

/-! ### Times of day -/

/-- A time on the clock. -/
structure TimeOfDay where
  hour : Nat
  minute : Nat
  second : Nat
  nanos : Nat
  deriving DecidableEq, Repr, Inhabited

namespace TimeOfDay

/-- Whether there is such a time. -/
def isValid (t : TimeOfDay) : Bool :=
  decide (t.hour < 24 ∧ t.minute < 60 ∧ t.second < 60) &&
    (decide (t.nanos < 1000000000) || (decide (t.nanos < 2 * 1000000000) && t.second == 59))

/-- The time of a console line: on the 24-hour clock, yet with a meridiem marker. A leap second is
shown as second 60. -/
def text (t : TimeOfDay) : String :=
  padded 2 t.hour ++ ":" ++ padded 2 t.minute ++ ":" ++
    padded 2 (t.second + t.nanos / 1000000000) ++ (if t.hour < 12 then " AM" else " PM")

end TimeOfDay

/-! ### Calendar dates -/

/-- Whether a year has a 29th of February. -/
def isLeapYear (year : Int) : Bool :=
  year % 4 == 0 && (year % 100 != 0 || year % 400 == 0)

/-- The number of days of a month, or none where there is no such month. -/
def daysInMonth (year : Int) (month : Nat) : Nat :=
  match month with
  | 1 | 3 | 5 | 7 | 8 | 10 | 12 => 31
  | 4 | 6 | 9 | 11 => 30
  | 2 => if isLeapYear year then 29 else 28
  | _ => 0

/-- A date and a time of day, to the second. -/
structure Timestamp where
  year : Int
  month : Nat
  day : Nat
  hour : Nat
  minute : Nat
  second : Nat
  deriving DecidableEq, Repr, Inhabited

namespace Timestamp

/-- Whether there is such a date and time. Second 60 is allowed in any minute. -/
def isValid (t : Timestamp) : Bool :=
  decide (Instant.firstYear ≤ t.year ∧ t.year ≤ Instant.lastYear ∧
    1 ≤ t.day ∧ t.day ≤ daysInMonth t.year t.month ∧
    t.hour < 24 ∧ t.minute < 60 ∧ t.second ≤ 60)

/-- A timestamp of four digits of the year, two of the month and two of the day, a `T`, and two
digits each of hour, minute and second. -/
def text (t : Timestamp) : String :=
  padded 4 t.year.toNat ++ padded 2 t.month ++ padded 2 t.day ++ "T" ++
    padded 2 t.hour ++ padded 2 t.minute ++ padded 2 t.second

/-- The year, month and day of a number of days after the first of January 1970. Days are counted
from the first of March, so that a leap day comes last in its year, in eras of 400 years. -/
def dateOfDay (days : Nat) : Nat × Nat × Nat :=
  let shifted := days + 719468
  let inEra := shifted % 146097
  let year := (inEra - inEra / 1460 + inEra / 36524 - inEra / 146096) / 365
  let inYear := inEra - (365 * year + year / 4 - year / 100)
  let march := (5 * inYear + 2) / 153
  let month := if march < 10 then march + 3 else march - 9
  (year + shifted / 146097 * 400 + (if month ≤ 2 then 1 else 0), month,
    inYear - (153 * march + 2) / 5 + 1)

/-- The date and time in universal time, a number of seconds after the start of 1970. -/
def ofSeconds (n : Nat) : Timestamp :=
  let (year, month, day) := dateOfDay (n / 86400)
  ⟨year, month, day, n / 3600 % 24, n / 60 % 60, n % 60⟩

example : dateOfDay 0 = (1970, 1, 1) := by decide

example : dateOfDay 11016 = (2000, 2, 29) := by decide

example : (ofSeconds 1709251199).text = "20240229T235959" := by decide

end Timestamp

end Logbook
