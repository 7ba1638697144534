/-!
# Instants

Seconds since 1970-01-01T00:00:00Z with nanoseconds, the proleptic Gregorian
calendar, and the written form `YYYY-MM-DDTHH:MM:SS[.fraction]Z`. In a leap
second the nanoseconds run on past a thousand million and the second is written
as 60.
-/
namespace DocQuery

/-- An instant of universal time; only the last second of a minute may run on. -/
structure Instant where
  seconds : Int
  nanos : Nat
  nanos_valid : nanos < 1000000000 ∨ (nanos < 2000000000 ∧ seconds % 60 = 59)
  deriving DecidableEq, Repr

structure CalendarDay where
  year : Int
  month : Nat
  day : Nat
  deriving DecidableEq, Repr

namespace CalendarDay

/-- The calendar day of a number of days since 1970-01-01. Years are counted from
March, so that a leap day ends its year; 400 years have 146097 days. -/
def ofDays (days : Int) : CalendarDay :=
  let shifted := days + 719468
  let era := shifted / 146097
  let dayOfEra := (shifted % 146097).toNat
  let yearOfEra := (dayOfEra - dayOfEra / 1460 + dayOfEra / 36524 - dayOfEra / 146096) / 365
  let dayOfYear := dayOfEra - (365 * yearOfEra + yearOfEra / 4 - yearOfEra / 100)
  let marchMonth := (5 * dayOfYear + 2) / 153
  let month := if marchMonth < 10 then marchMonth + 3 else marchMonth - 9
  let year : Int := yearOfEra + era * 400
  { year := if month ≤ 2 then year + 1 else year
    month := month
    day := dayOfYear - (153 * marchMonth + 2) / 5 + 1 }

end CalendarDay

/-- A number with leading zeros up to a width. -/
def zeroPadded (width n : Nat) : List Char :=
  let digits := Nat.toDigits 10 n
  List.replicate (width - digits.length) '0' ++ digits

namespace Instant

/-- The instant of the given seconds and nanoseconds, if they form one. -/
def of? (seconds : Int) (nanos : Nat) : Option Instant :=
  if h : nanos < 1000000000 ∨ (nanos < 2000000000 ∧ seconds % 60 = 59) then
    some ⟨seconds, nanos, h⟩
  else none

def calendarDay (t : Instant) : CalendarDay :=
  .ofDays (t.seconds / 86400)

/-- The seconds since midnight, without a leap second. -/
def secondOfDay (t : Instant) : Nat :=
  (t.seconds % 86400).toNat

/-- A leap second counts from the start of the second before it. -/
def isLeap (t : Instant) : Bool := 1000000000 ≤ t.nanos

/-- The nanoseconds within the written second. -/
def subsecond (t : Instant) : Nat :=
  if t.isLeap then t.nanos - 1000000000 else t.nanos

/-- Years outside 0 to 9999 carry a sign. -/
def yearText (year : Int) : List Char :=
  if 0 ≤ year ∧ year ≤ 9999 then zeroPadded 4 year.toNat
  else (if year < 0 then '-' else '+') :: zeroPadded 4 year.natAbs

def secondText (t : Instant) : List Char :=
  let day := t.calendarDay
  let hour := t.secondOfDay / 3600
  let minute := t.secondOfDay / 60 % 60
  let second := t.secondOfDay % 60 + if t.isLeap then 1 else 0
  yearText day.year ++ '-' :: zeroPadded 2 day.month ++ '-' :: zeroPadded 2 day.day ++
    'T' :: zeroPadded 2 hour ++ ':' :: zeroPadded 2 minute ++ ':' :: zeroPadded 2 second

/-- The written form with three digits of the second's fraction, cut off. -/
def millisText (t : Instant) : String :=
  String.ofList (t.secondText ++ '.' :: zeroPadded 3 (t.subsecond / 1000000) ++ ['Z'])

/-- The fraction with the fewest of no, three, six or nine digits that is exact. -/
def exactFraction (nanos : Nat) : List Char :=
  if nanos = 0 then []
  else if nanos % 1000000 = 0 then '.' :: zeroPadded 3 (nanos / 1000000)
  else if nanos % 1000 = 0 then '.' :: zeroPadded 6 (nanos / 1000)
  else '.' :: zeroPadded 9 nanos

/-- The written form with an exact fraction. -/
def exactText (t : Instant) : String :=
  String.ofList (t.secondText ++ exactFraction t.subsecond ++ ['Z'])

end Instant
end DocQuery
