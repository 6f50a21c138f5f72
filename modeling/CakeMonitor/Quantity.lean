import CakeMonitor.Number.Numeral
import CakeMonitor.Text.Split
/-!
# Quantities of a report

Model of `parse_uint`, `parse_bytes`, `format_bytes`, `parse_delay_usec` and `parse_delay_ms`. Counters,
sizes and delays carry a unit behind their number. A token that is none of these counts as zero, so that one
odd field does not spoil a report; only a numeral made of digits without value, or of too many digits, is an
error.

* `Counter.read` (`parse_uint`): a counter such as `1592616`, `0b` or `12p`.
* `Size.read` (`parse_bytes`), `Size.print` (`format_bytes`): a size such as `238656b`, `4097Kb`, `32Mb`, in
  bytes.
* `Delay.read?` (`_split_delay`): a delay such as `500us`, `1.5ms`, `2s`; `Delay.microseconds`
  (`parse_delay_usec`) and `Delay.milliseconds` (`parse_delay_ms`) put it on one scale.
-/

namespace CakeMonitor

/-- The number of a token made of digits, and zero for any other token. -/
def digitsOrZero (token : Text) : Except NumberError Nat :=
  if token ≠ [] ∧ token.all CodePoint.isDigit then Numeral.natural token else .ok 0

namespace Counter

/-- The letters that may stand behind a counter. -/
def unitLetters : Text := "bBkKmMgGpP"

/-- The value of a counter; any number of unit letters is dropped. -/
def read (token : Text) : Except NumberError Nat :=
  digitsOrZero (token.trim.trimEndBy (· ∈ unitLetters))

end Counter

namespace Size

/-- The units of a size with their multiples of a byte, the longer ones first. -/
def units : List (Text × Nat) :=
  [("Gb", 1024 * 1024 * 1024), ("Mb", 1024 * 1024), ("Kb", 1024), ("b", 1)]

/-- The value of a trimmed size: the first unit it ends in counts, and none counts as bytes. -/
def readIn : List (Text × Nat) → Text → Except NumberError Nat
  | [], t => digitsOrZero t
  | (unit, multiple) :: us, t =>
    match Text.beforeSuffix? unit t with
    | some number => (digitsOrZero number).map (· * multiple)
    | none => readIn us t

/-- The number of bytes of a size. -/
def read (t : Text) : Except NumberError Nat := readIn units t.trim

/-- A number of bytes as a size. -/
def print (total : Int) : Except NumberError Text :=
  (printInt total).map (· ++ ("b" : Text))

end Size

/-- A unit of time. -/
inductive TimeUnit where
  | us
  | ms
  | s
  deriving DecidableEq

namespace TimeUnit

/-- How the unit is written. -/
def name : TimeUnit → Text
  | .us => "us"
  | .ms => "ms"
  | .s => "s"

/-- The unit that a text ends in and what stands before it; `s` is tried last, since the others end
in it. -/
def split? (t : Text) : Option (Text × TimeUnit) :=
  [us, ms, s].findSome? fun u => (Text.beforeSuffix? u.name t).map (·, u)

end TimeUnit

/-- A delay: a number of units of time. -/
structure Delay where
  number : Binary64
  unit : TimeUnit
  deriving DecidableEq

namespace Delay

/-- The delay that a token spells; the plain `0` and tokens without a unit are none. -/
def read? (t : Text) : Option Delay := do
  let (number, unit) ← TimeUnit.split? t.trim
  return ⟨← Numeral.real? number, unit⟩

/-- A thousand. -/
def thousand : Binary64 := .ofNat 1000

/-- The delay in microseconds. -/
def toMicroseconds (d : Delay) : Binary64 :=
  match d.unit with
  | .us => d.number
  | .ms => d.number.mul thousand
  | .s => d.number.mul (.ofNat 1000000)

/-- The delay in milliseconds. -/
def toMilliseconds (d : Delay) : Binary64 :=
  match d.unit with
  | .us => d.number.div thousand
  | .ms => d.number
  | .s => d.number.mul thousand

/-- The microseconds of a token, zero when it is no delay. -/
def microseconds (t : Text) : Binary64 := ((read? t).map toMicroseconds).getD .zero

/-- The milliseconds of a token, zero when it is no delay. -/
def milliseconds (t : Text) : Binary64 := ((read? t).map toMilliseconds).getD .zero

end Delay

end CakeMonitor
