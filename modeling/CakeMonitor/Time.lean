import CakeMonitor.Snapshot
/-!
# Points of time as text

How the time of a poll is written: in seconds by `health_check` and `current_response`, and with its fraction
in the snapshots that are served.

* `Time.civil`: the calendar date of a day, counted from the beginning of 1970.
* `Time.toSeconds`: a time cut to whole seconds, such as `2023-11-14T22:13:20+00:00`.
* `Time.toMicros`: a time with its fraction, such as `2023-11-14T22:13:20.250000Z`.
-/

namespace CakeMonitor.Time

/-- A date of the Gregorian calendar. -/
structure Date where
  year : Int
  month : Int
  day : Int
  deriving DecidableEq

/-- The date of a day. Years are counted from March on, so that the leap day comes last, in eras of
400 years, which have 146097 days each. -/
def civil (day : Int) : Date :=
  let z := day + 719468
  let era := z / 146097
  let dayOfEra := z % 146097
  let yearOfEra := (dayOfEra - dayOfEra / 1460 + dayOfEra / 36524 - dayOfEra / 146096) / 365
  let dayOfYear := dayOfEra - (365 * yearOfEra + yearOfEra / 4 - yearOfEra / 100)
  let monthFromMarch := (5 * dayOfYear + 2) / 153
  let month := if monthFromMarch < 10 then monthFromMarch + 3 else monthFromMarch - 9
  { year := yearOfEra + era * 400 + (if month ≤ 2 then 1 else 0)
    month
    day := dayOfYear - (153 * monthFromMarch + 2) / 5 + 1 }

/-- A natural number in at least that many digits. -/
def padded (width : Nat) (n : Int) : Text :=
  let digits := Text.ofNat n.toNat
  List.replicate (width - digits.length) ('0' : CodePoint) ++ digits

/-- Date and time of day in whole seconds. -/
def dateTime (t : Timestamp) : Text :=
  let seconds := t / 1000
  let date := civil (seconds / 86400)
  let second := seconds % 86400
  padded 4 date.year ++ ("-" : Text) ++ padded 2 date.month ++ ("-" : Text) ++ padded 2 date.day
    ++ ("T" : Text) ++ padded 2 (second / 3600) ++ (":" : Text) ++ padded 2 (second / 60 % 60)
    ++ (":" : Text) ++ padded 2 (second % 60)

/-- The time cut to whole seconds, with the offset from universal time. -/
def toSeconds (t : Timestamp) : Text := dateTime t ++ ("+00:00" : Text)

/-- The time with its fraction in six digits, if it has one. -/
def toMicros (t : Timestamp) : Text :=
  dateTime t ++
    (if t % 1000 = 0 then [] else ("." : Text) ++ padded 3 (t % 1000) ++ ("000" : Text)) ++
    ("Z" : Text)

/-- The beginning of 1970 and a leap day. -/
example :
    civil 0 = ⟨1970, 1, 1⟩ ∧ civil (-1) = ⟨1969, 12, 31⟩ ∧ civil 19782 = ⟨2024, 2, 29⟩ := by
  decide

/-- The time in seconds, as a double. -/
def seconds (t : Timestamp) : Except NumberError Binary64 :=
  (Binary64.ofInt t).map fun x => x.div (.ofNat 1000)

end CakeMonitor.Time
