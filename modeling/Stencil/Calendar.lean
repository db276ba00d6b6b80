import Stencil.Datum

/-!
# The calendar

Days by their number, counted from the first day of 1970, and moments by the seconds since its start,
as a clock shows them that may be ahead of universal time or behind it.
Years run from 1 to 9999. The calendar repeats every 400 years, which have 146097 days; within them a
year is taken to begin in March, so that the day that some years have more comes last.
-/

namespace Stencil

namespace Day

/-- Whether a year has a day more. -/
def isLeapYear (year : Nat) : Bool := year % 4 == 0 && (year % 100 != 0 || year % 400 == 0)

/-- The number of days of a month. -/
def daysOf (year month : Nat) : Nat :=
  if month = 2 then (if isLeapYear year then 29 else 28)
  else if month = 4 || month = 6 || month = 9 || month = 11 then 30
  else 31

/-- What is wrong with a day that there is not. -/
def complaint? (d : Day) : Option String :=
  if d.year = 0 then some "year 0 is out of range"
  else if d.month = 0 || d.month > 12 then some "month must be in 1..12"
  else if d.day = 0 || d.day > daysOf d.year d.month then some "day is out of range for month"
  else none

/-- The day of a number, if its year is one that is counted. -/
def ofNumber? (n : Int) : Option Day :=
  let shifted := n + 719468
  let era := shifted / 146097
  let inEra := (shifted % 146097).toNat
  let year := (inEra - inEra / 1460 + inEra / 36524 - inEra / 146096) / 365
  let inYear := inEra - (365 * year + year / 4 - year / 100)
  let month := (5 * inYear + 2) / 153
  let day := inYear - (153 * month + 2) / 5 + 1
  let afterNewYear := if month < 10 then 0 else 1
  let full : Int := era * 400 + year + afterNewYear
  if 1 ≤ full && full ≤ 9999 then
    some { year := full.toNat, month := if month < 10 then month + 3 else month - 9, day }
  else none

end Day

namespace Moment

/-- Why a number of seconds is no moment. -/
inductive Unreachable where
  /-- It lies in no year that is counted, or is no number. -/
  | noYear
  /-- It lies in a year that a clock does not know. -/
  | unknownYear
  /-- It lies beyond what a clock counts. -/
  | tooFar
  deriving Repr, DecidableEq

/-- The moment so many seconds and millionths after the start of 1970, on a clock that is `offset`
seconds ahead of universal time. -/
def ofSeconds (offset seconds : Int) (micro : Nat) : Except Unreachable Moment :=
  let shown := seconds + offset
  if seconds < -0x8000000000000000 || seconds ≥ 0x8000000000000000 then .error .tooFar
  -- the years of a clock are counted from 1900 in 32 bits
  else if shown < -67768040609740800 || shown ≥ 67768036191676800 then .error .unknownYear
  else
    match Day.ofNumber? (shown / 86400) with
    | none => .error .noYear
    | some day =>
      let clock := (shown % 86400).toNat
      .ok { day, hour := clock / 3600, minute := clock / 60 % 60, second := clock % 60, micro
            offset := none }

/-- The moment of a number of seconds on such a clock. A fraction is rounded to millionths, a half to
the even one. -/
def ofNumber (offset : Int) : Scalar.Number → Except Unreachable Moment
  | .whole i => ofSeconds offset i 0
  | .double x =>
    match Decimal.truncate? x with
    | none => .error (if x.isNaN then .noYear else .tooFar)
    | some whole =>
      let fraction := x - Decimal.ofInt whole
      let micro := (Decimal.round? (fraction * 1000000)).getD 0
      if micro ≥ 1000000 then ofSeconds offset (whole + 1) (micro - 1000000).toNat
      else if micro < 0 then ofSeconds offset (whole - 1) (micro + 1000000).toNat
      else ofSeconds offset whole micro.toNat

end Moment

end Stencil
