import CakeMonitor.Json.Value
import CakeMonitor.Number.Numeral
import CakeMonitor.Text.Split
/-!
# Coercion

The values of settings come as texts or from JSON, and are brought to the types of the fields of `Settings` by
a library that is no part of the monitor. So the settings are read by a coercion that is left open.

* `Fault`: what is wrong with a value.
* `Coercion`: how values are brought to reals, integers and texts.
* `Coercion.TakesTexts`: what the settings rely on.
* `Coercion.lax`: the coercion that the monitor is run with, as far as its settings need it. It accepts
  the numerals of ASCII, with padding, and with single underscores inside.
-/

namespace CakeMonitor

/-- What is wrong with a value. -/
inductive Fault where
  | notReal
  | realSyntax
  | notPositive
  | notInteger
  | integerSyntax
  | integerTooLong
  | fractional
  | notFinite
  | notUnicode
  | notText
  | notList
  | notAllowed
  deriving DecidableEq

/-- The name of a fault. -/
def Fault.name : Fault → String
  | .notReal => "float_type"
  | .realSyntax => "float_parsing"
  | .notPositive => "greater_than"
  | .notInteger => "int_type"
  | .integerSyntax => "int_parsing"
  | .integerTooLong => "int_parsing_size"
  | .fractional => "int_from_float"
  | .notFinite => "finite_number"
  | .notUnicode => "string_unicode"
  | .notText => "string_type"
  | .notList => "list_type"
  | .notAllowed => "value_error"

/-- How values are brought to a type. -/
structure Coercion where
  real : Json → Except Fault Binary64
  integer : Json → Except Fault Int
  text : Json → Except Fault Text

namespace Coercion

/-- A text that is accepted as a text stays as it is. -/
structure TakesTexts (c : Coercion) : Prop where
  eq_of_ok : ∀ {t u : Text}, c.text (.text t) = .ok u → u = t

/-! ## The coercion in use -/

/-- Whether a lone surrogate is among the code points, so that no characters make up the text. -/
def hasSurrogate (t : Text) : Bool := t.any fun c => c.toChar? = none

/-- A text of ASCII characters as characters, with a question mark for any other. -/
def ascii (t : Text) : List Char :=
  t.map fun c => if c.val < 0x80 then Char.ofNat c.val else '?'

/-- The text without its underscores, if each of them stands between two other code points. -/
def withoutUnderscores? (t : Text) : Option Text :=
  let parts := t.pieces '_'
  if [] ∈ parts then none else some parts.flatten

/-- The real that a numeral of ASCII spells. It has padding around it or underscores inside, but not both. -/
def real? (t : Text) : Option Binary64 :=
  (Numeral.bare? (ascii (t.trimBy CodePoint.isPadding))).or <|
    (withoutUnderscores? t).bind fun bare => Numeral.bare? (ascii bare)

/-- A real from a value. -/
def laxReal : Json → Except Fault Binary64
  | .real x => .ok x
  | .int i => (Binary64.ofInt i).mapError fun _ => .notReal
  | .bool b => .ok (.ofNat b.toNat)
  | .text t =>
    if hasSurrogate t then .error .notUnicode
    else match real? t with
      | some x => .ok x
      | none => .error .realSyntax
  | _ => .error .notReal

/-- An integer without padding: a sign, digits with single underscores between them, and a fraction
of zeros. -/
def integer? (cs : List Char) : Option Int := do
  let (negative, cs) := Numeral.splitSign cs
  let ds ← Numeral.dropUnderscores false (cs.takeWhile (· ≠ '.'))
  let wholeOnly := match cs.dropWhile (· ≠ '.') with
    | [] => true
    | _ :: zeros => zeros ≠ [] && zeros.all (· = '0')
  if ds ≠ [] && ds.all Char.isDigit && wholeOnly then
    some (if negative then -(Numeral.ofChars ds : Int) else Numeral.ofChars ds)
  else none

/-- Whole reals from here on, and down to its negative, are taken for no integer. -/
def wholeLimit : Nat := twoPow 63

/-- An integer from a value. -/
def laxInteger : Json → Except Fault Int
  | .int i => .ok i
  | .bool b => .ok b.toNat
  | .text t =>
    if hasSurrogate t then .error .notUnicode
    else match integer? (ascii (t.trimBy CodePoint.isPadding)) with
      | some i =>
        if (Nat.toDigits 10 i.natAbs).length ≤ digitLimit then .ok i else .error .integerTooLong
      | none => .error .integerSyntax
  | .real x => match x.truncate with
    | .error _ => .error .notFinite
    | .ok i =>
      if !((Binary64.ofRatio i 1).sub x).isZero then .error .fractional
      else if i.natAbs < wholeLimit then .ok i
      else .error .integerTooLong
  | _ => .error .notInteger

/-- A text from a value. -/
def laxText : Json → Except Fault Text
  | .text t => .ok t
  | _ => .error .notText

/-- The coercion that the monitor is run with. -/
def lax : Coercion where
  real := laxReal
  integer := laxInteger
  text := laxText

theorem takesTexts_lax : lax.TakesTexts where
  eq_of_ok h := (Except.ok.inj h).symm

end Coercion

end CakeMonitor
