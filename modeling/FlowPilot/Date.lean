import Mathlib.Data.Nat.Notation

/-!
# Dates

`Date.prototype.toISOString` for a time value in milliseconds since the
epoch, in the proleptic Gregorian calendar.
-/

namespace FlowPilot

/-- The year, month and day of a number of days since 1970-01-01. Years are
counted from March, so that the leap day is the last of its year. -/
def civilFromDays (days : Int) : Int × Int × Int :=
  let z := days + 719468
  let era := z / 146097
  let dayOfEra := z % 146097
  let yearOfEra := (dayOfEra - dayOfEra / 1460 + dayOfEra / 36524 - dayOfEra / 146096) / 365
  let dayOfYear := dayOfEra - (365 * yearOfEra + yearOfEra / 4 - yearOfEra / 100)
  let monthFromMarch := (5 * dayOfYear + 2) / 153
  let month := if monthFromMarch < 10 then monthFromMarch + 3 else monthFromMarch - 9
  let year := yearOfEra + era * 400 + (if month ≤ 2 then 1 else 0)
  (year, month, dayOfYear - (153 * monthFromMarch + 2) / 5 + 1)

/-- `n` in decimal, with at least `width` digits. -/
def padded (width : Nat) (n : Int) : String :=
  let digits := Nat.toDigits 10 n.toNat
  String.ofList (List.replicate (width - digits.length) '0' ++ digits)

/-- Four digits for the years 0 to 9999, else a sign and six. -/
def isoYear (year : Int) : String :=
  if 0 ≤ year ∧ year ≤ 9999 then padded 4 year
  else (if year < 0 then "-" else "+") ++ padded 6 year.natAbs

/-- `date.toISOString()`. -/
def toISOString (ms : Int) : String :=
  let (year, month, day) := civilFromDays (ms / 86400000)
  let inDay := ms % 86400000
  isoYear year ++ "-" ++ padded 2 month ++ "-" ++ padded 2 day
    ++ "T" ++ padded 2 (inDay / 3600000) ++ ":" ++ padded 2 (inDay / 60000 % 60)
    ++ ":" ++ padded 2 (inDay / 1000 % 60) ++ "." ++ padded 3 (inDay % 1000) ++ "Z"

example : toISOString 951826089007 = "2000-02-29T12:08:09.007Z" := by decide +kernel

end FlowPilot
