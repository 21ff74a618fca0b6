/-!
# Dates and times of day as text

A date is a count of days from 1970-01-01 in the Gregorian calendar, extended to all years; a time of
day is a count of nanoseconds from midnight, written to the second with the fraction cut off.

Days are counted in eras of 400 years that begin on the first of March, so that a leap day is the last
day of its year and each era has the same 146,097 days.
-/
namespace TableProfile.Calendar

/-- A decimal numeral of at least `width` digits. -/
def padded (width n : Nat) : String :=
  let digits := toString n
  String.ofList (List.replicate (width - digits.length) '0') ++ digits

/-- Year, month and day of a count of days from 1970-01-01. -/
def civil (days : Int) : Int × Nat × Nat :=
  let shifted := days + 719468
  let era := shifted / 146097
  let dayOfEra := (shifted % 146097).toNat
  let yearOfEra := (dayOfEra - dayOfEra / 1460 + dayOfEra / 36524 - dayOfEra / 146096) / 365
  let dayOfYear := dayOfEra - (365 * yearOfEra + yearOfEra / 4 - yearOfEra / 100)
  let march := (5 * dayOfYear + 2) / 153
  let day := dayOfYear - (153 * march + 2) / 5 + 1
  let month := if march < 10 then march + 3 else march - 9
  let year : Int := yearOfEra + era * 400
  (if month ≤ 2 then year + 1 else year, month, day)

/-- A year has four digits, and a sign outside the years 0 to 9999. -/
def yearText (year : Int) : String :=
  if year < 0 then "-" ++ padded 4 year.natAbs
  else if year > 9999 then "+" ++ toString year
  else padded 4 year.natAbs

/-- The text `YYYY-MM-DD` of a count of days. -/
def dateText (days : Int) : String :=
  let (year, month, day) := civil days
  yearText year ++ "-" ++ padded 2 month ++ "-" ++ padded 2 day

/-- The time of day that a count of nanoseconds stands for, if it is less than a day. -/
def timeOfDay? (nanoseconds : Int) : Option Nat :=
  if 0 ≤ nanoseconds ∧ nanoseconds < 86400000000000 then some nanoseconds.toNat else none

/-- The text `HH:MM:SS` of a count of nanoseconds. -/
def timeText (nanoseconds : Nat) : String :=
  let seconds := nanoseconds / 1000000000
  padded 2 (seconds / 3600) ++ ":" ++ padded 2 (seconds / 60 % 60) ++ ":" ++ padded 2 (seconds % 60)

end TableProfile.Calendar
