/-! # Points in time

A point in time as milliseconds since the start of 1970, and its text as a date and a time of day in
universal time. -/

namespace ChainMigration

/-- A point in time, in milliseconds since the start of 1970. -/
structure Timestamp where
  milliseconds : Int
deriving DecidableEq

namespace Timestamp

/-- The date of a day counted from the start of 1970: year, month and day of the month. The year is
taken to begin with March, so that the day that comes and goes stands last. -/
def civilDate (day : Int) : Int × Nat × Nat :=
  let shifted := day + 719468
  let era := shifted / 146097
  let dayOfEra := (shifted % 146097).toNat
  let yearOfEra := (dayOfEra - dayOfEra / 1460 + dayOfEra / 36524 - dayOfEra / 146096) / 365
  let dayOfYear := dayOfEra - (365 * yearOfEra + yearOfEra / 4 - yearOfEra / 100)
  let shiftedMonth := (5 * dayOfYear + 2) / 153
  let dayOfMonth := dayOfYear - (153 * shiftedMonth + 2) / 5 + 1
  let month := if shiftedMonth < 10 then shiftedMonth + 3 else shiftedMonth - 9
  (era * 400 + yearOfEra + (if month ≤ 2 then 1 else 0), month, dayOfMonth)

/-- A number with zeros in front up to a width. -/
def padded (width n : Nat) : String :=
  let digits := toString n
  .ofList (.replicate (width - digits.length) '0') ++ digits

/-- The text of a year; a sign is written only before the year 0 and after the year 9999. -/
def yearText (year : Int) : String :=
  if year < 0 then "-" ++ padded 4 year.natAbs
  else if 9999 < year then "+" ++ padded 4 year.natAbs
  else padded 4 year.natAbs

/-- The date and the time of day; milliseconds are written unless they are zero. -/
def text (t : Timestamp) : String :=
  let seconds := t.milliseconds / 1000
  let fraction := (t.milliseconds % 1000).toNat
  let (year, month, day) := civilDate (seconds / 86400)
  let second := (seconds % 86400).toNat
  yearText year ++ "-" ++ padded 2 month ++ "-" ++ padded 2 day ++ "T" ++
    padded 2 (second / 3600) ++ ":" ++ padded 2 (second / 60 % 60) ++ ":" ++
    padded 2 (second % 60) ++
    (if fraction = 0 then "" else "." ++ padded 3 fraction) ++ "Z"

end Timestamp

/-- A duration of so many milliseconds in seconds, with as many places as it needs, at least one. -/
def secondsText (milliseconds : Nat) : String :=
  let places := (Timestamp.padded 3 (milliseconds % 1000)).toList
  let kept := (places.reverse.dropWhile (· = '0')).reverse
  toString (milliseconds / 1000) ++ "." ++ (if kept = [] then "0" else .ofList kept)

end ChainMigration
