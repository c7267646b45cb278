import LineChat.Text.Decimal

set_option autoImplicit false

/-! # Dates and times of day

A point on the proleptic Gregorian calendar, as the clock of a room shows it. A second numbered
59 may run to two thousand million nanoseconds: the second half is the leap second, which is
shown as second 60. -/

namespace LineChat

/-- A date with a time of day. Nothing here says that the date exists: `isValid` does. -/
structure DateTime where
  year : Int
  month : Nat
  day : Nat
  hour : Nat
  minute : Nat
  second : Nat
  nanosecond : Nat
  deriving DecidableEq, Repr

namespace DateTime

/-! ## Which dates exist -/

/-- Every fourth year is a leap year, but of the full centuries only every fourth. -/
def isLeapYear (year : Int) : Bool :=
  year % 4 == 0 && (year % 100 != 0 || year % 400 == 0)

/-- The number of days of a month, zero where there is no such month. -/
def daysInMonth (year : Int) : Nat → Nat
  | 1 | 3 | 5 | 7 | 8 | 10 | 12 => 31
  | 4 | 6 | 9 | 11 => 30
  | 2 => if isLeapYear year then 29 else 28
  | _ => 0

/-- The years that the calendar covers, ends included. -/
def firstYear : Int := -262143

/-- The last year that the calendar covers. -/
def lastYear : Int := 262142

/-- One thousand million nanoseconds make a second. -/
def nanosecondsPerSecond : Nat := 1000000000

/-- Whether the date exists and the time of day is one of its moments. -/
def isValid (t : DateTime) : Bool :=
  firstYear ≤ t.year && t.year ≤ lastYear
    && 1 ≤ t.day && t.day ≤ daysInMonth t.year t.month
    && t.hour < 24 && t.minute < 60 && t.second < 60
    && t.nanosecond < (if t.second == 59 then 2 else 1) * nanosecondsPerSecond

/-! ## Showing a date -/

/-- A year has four digits; one that four digits cannot show carries a sign. -/
def renderYear (year : Int) : String :=
  if 0 ≤ year && year ≤ 9999 then Decimal.padded 4 year.toNat
  else if year < 0 then "-" ++ Decimal.padded 4 year.natAbs
  else "+" ++ Decimal.padded 4 year.toNat

/-- The second that a clock face shows, which is 60 within a leap second. -/
def shownSecond (t : DateTime) : Nat :=
  t.second + t.nanosecond / nanosecondsPerSecond

/-- Year, month and day, then hour, minute and second: `2024-01-02 03:04:05`. -/
def render (t : DateTime) : String :=
  renderYear t.year ++ "-" ++ Decimal.padded 2 t.month ++ "-" ++ Decimal.padded 2 t.day
    ++ " " ++ Decimal.padded 2 t.hour ++ ":" ++ Decimal.padded 2 t.minute
    ++ ":" ++ Decimal.padded 2 t.shownSecond

example : render ⟨-1, 12, 31, 23, 59, 59, 1500000000⟩ = "-0001-12-31 23:59:60" := by
  decide +kernel

end DateTime

end LineChat
