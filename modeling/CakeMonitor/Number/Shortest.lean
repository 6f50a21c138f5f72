import CakeMonitor.Number.Binary64
/-!
# Shortest decimal of a double

The text of a double has the fewest significant digits that read back as the same double, and of
those the nearest to it. So the timeout stands in the message of `TcExecutor.exec_command`, and reals
in what the service serves.

* `Binary64.shortest`: digits and exponent of a positive finite double.
* `RealLayout`: where positional notation ends; `RealLayout.render` writes a double.
-/

namespace CakeMonitor

namespace Binary64

/-- A magnitude between decimal bounds, all over one denominator. -/
structure Interval where
  value : Nat
  low : Nat
  high : Nat
  den : Nat
  /-- the bounds themselves belong to it -/
  closed : Bool

/-- The reals that round to `m` units: halfway to the neighbours, and to an even significand the
bounds too. Below a power of two the neighbours are twice as close. -/
def interval (m : Nat) : Interval :=
  let gap := twoPow (spacing m)
  let below := if 0 < spacing m ∧ m = twoPow 52 * gap then gap else 2 * gap
  { value := 4 * m, low := 4 * m - below, high := 4 * m + 2 * gap, den := 4 * unitsOfOne,
    closed := m / gap % 2 = 0 }

/-- Whether `d · 10 ^ e` lies in the interval. -/
def Interval.has (i : Interval) (d : Nat) (e : Int) : Bool :=
  let x := d * tenPow e.toNat * i.den
  let scale := tenPow (-e).toNat
  if i.closed then i.low * scale ≤ x && x ≤ i.high * scale
  else i.low * scale < x && x < i.high * scale

/-- Whether the value is below `10 ^ e`. -/
def Interval.below (i : Interval) (e : Int) : Bool :=
  i.value * tenPow (-e).toNat < tenPow e.toNat * i.den

/-- The number of places before the point, negative when zeros follow the point. -/
def Interval.places (i : Interval) (m : Nat) : Int :=
  let guess : Int := ((m.log2 : Int) - 1074) * 30103 / 100000
  if i.below guess then guess else if i.below (guess + 1) then guess + 1 else guess + 2

/-- The nearest point with `n` significant digits that lies in the interval, if one does; a tie goes
to the even one. -/
def Interval.point? (i : Interval) (places : Int) (n : Nat) : Option (Nat × Int) :=
  let e := places - n
  let num := i.value * tenPow (-e).toNat
  let den := i.den * tenPow e.toNat
  let down := num / den
  let near := roundHalfEven num den
  let far := if near = down then down + 1 else down
  if i.has near e then some (near, e) else if i.has far e then some (far, e) else none

/-- Drop the zeros at the end of the digits. -/
def dropZeros : Nat → Nat → Int → Nat × Int
  | 0, d, e => (d, e)
  | fuel + 1, d, e => if d % 10 = 0 then dropZeros fuel (d / 10) (e + 1) else (d, e)

/-- Digits `d` and exponent `e` of the shortest decimal `d · 10 ^ e` that reads back as `m` units.
Seventeen digits always suffice. -/
def shortest (m : Nat) : Nat × Int :=
  let i := interval m
  let places := i.places m
  let found := ((List.range 17).findSome? fun n => i.point? places (n + 1)).getD (0, 0)
  dropZeros 17 found.1 found.2

end Binary64

/-- How reals are written: positionally while the decimal exponent lies between two bounds, else
with an exponent. -/
structure RealLayout where
  /-- least decimal exponent written positionally -/
  least : Int
  /-- first decimal exponent that is not -/
  bound : Int
  /-- least number of digits of an exponent -/
  exponentDigits : Nat
  nan : Text
  infinity : Text

namespace RealLayout

/-- The layout of the program's messages. -/
def plain : RealLayout :=
  { least := -4, bound := 16, exponentDigits := 2, nan := "nan", infinity := "inf" }

/-- That many zeros. -/
def zeros (n : Nat) : Text := List.replicate n ('0' : CodePoint)

/-- A positive decimal `d · 10 ^ e` in the layout. -/
def renderDecimal (l : RealLayout) (d : Nat) (e : Int) : Text :=
  let digits := Text.ofNat d
  let x : Int := e + digits.length - 1
  if l.least ≤ x ∧ x < l.bound then
    if 0 ≤ e then digits ++ zeros e.toNat ++ (".0" : Text)
    else if 0 ≤ x then
      digits.take (x.toNat + 1) ++ ("." : Text) ++ digits.drop (x.toNat + 1)
    else ("0." : Text) ++ zeros (-x - 1).toNat ++ digits
  else
    let fraction := digits.drop 1
    let exponent := Text.ofNat x.natAbs
    digits.take 1 ++ (if fraction = [] then [] else ("." : Text) ++ fraction) ++
      (if x < 0 then ("e-" : Text) else ("e+" : Text)) ++
      zeros (l.exponentDigits - exponent.length) ++ exponent

/-- The text of a double. -/
def render (l : RealLayout) : Binary64 → Text
  | .nan => l.nan
  | .infinite s => if s then '-' :: l.infinity else l.infinity
  | .finite s m =>
    let magnitude : Text :=
      if m = 0 then "0.0"
      else l.renderDecimal (Binary64.shortest m).1 (Binary64.shortest m).2
    if s then '-' :: magnitude else magnitude

end RealLayout

end CakeMonitor
