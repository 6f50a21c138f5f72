import CakeMonitor.Json.Value
/-!
# Writing JSON

The compact form of a value in ASCII: no white space, and an escape for every control character and
every code point beyond ASCII.

* `Json.print`: the text of a value, given the text of a real.
-/

namespace CakeMonitor.Json

/-- A hexadecimal digit. -/
def hexDigit (n : Nat) : CodePoint := .ofChar (Nat.digitChar (n % 16))

/-- The escape of a 16-bit unit. -/
def escapeUnit (n : Nat) : Text :=
  ("\\u" : Text) ++ [hexDigit (n / 4096), hexDigit (n / 256), hexDigit (n / 16), hexDigit n]

/-- A code point between quotes. -/
def escape (c : CodePoint) : Text :=
  if c = '"' then "\\\""
  else if c = '\\' then "\\\\"
  else if 0x20 ≤ c.val ∧ c.val < 0x7f then [c]
  else if c.val < 0x10000 then escapeUnit c.val
  else escapeUnit (0xd800 + (c.val - 0x10000) / 0x400) ++ escapeUnit (0xdc00 + c.val % 0x400)

/-- A text between quotes. -/
def printText (t : Text) : Text := '"' :: (t.flatMap escape ++ ("\"" : Text))

mutual

/-- The text of a value. -/
def print (real : Binary64 → Text) : Json → Text
  | .null => "null"
  | .bool b => if b then "true" else "false"
  | .int i => Text.ofInt i
  | .real x => real x
  | .text t => printText t
  | .array xs => ("[" : Text) ++ printItems real xs ++ ("]" : Text)
  | .object fs => ("\x7b" : Text) ++ printFields real fs ++ ("\x7d" : Text)

/-- The items of an array with commas between them. -/
def printItems (real : Binary64 → Text) : List Json → Text
  | [] => []
  | [v] => print real v
  | v :: vs => print real v ++ ("," : Text) ++ printItems real vs

/-- The fields of an object with commas between them. -/
def printFields (real : Binary64 → Text) : List (Text × Json) → Text
  | [] => []
  | [(k, v)] => printText k ++ (":" : Text) ++ print real v
  | (k, v) :: fs =>
    printText k ++ (":" : Text) ++ print real v ++ ("," : Text) ++ printFields real fs

end

end CakeMonitor.Json
