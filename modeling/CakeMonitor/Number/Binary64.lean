import CakeMonitor.Number.Error
/-!
# Double precision numbers

The numbers of the IEEE 754 format binary64, in which `parse_delay_usec`, `parse_delay_ms`, `_rate` and
`StatsPoller.is_stale` compute. Every finite one is a multiple of the least positive one, 2⁻¹⁰⁷⁴, so its
magnitude is kept as that multiple, a natural number of *units*. An operation forms its exact result as a
quotient of natural numbers and rounds it once. The payload of a NaN is left out, as nothing reads it.

* `twoPow`, `tenPow`: the powers that numbers are scaled by.
* `Binary64.roundUnits`: the nearest representable number of units, ties to the even significand.
* `Binary64.ofInt`, `ofDecimal`, `add`, `sub`, `mul`, `div`: correctly rounded operations.
* `Binary64.lt`, `le`: comparisons; all are false on NaN, and the two zeros are equal.
* `Binary64.truncate`: the integer part; NaN and the infinities have none.
-/

namespace CakeMonitor

/-- A power of two; doubles are spaced by them. -/
def twoPow (k : Nat) : Nat := Nat.pow 2 k

theorem twoPow_pos (k : Nat) : 0 < twoPow k := Nat.pow_pos (by decide)

theorem twoPow_succ (k : Nat) : twoPow (k + 1) = twoPow k * 2 := rfl

/-- A power of ten. -/
def tenPow (k : Nat) : Nat := Nat.pow 10 k

/-- A double: NaN, an infinity, or a sign and a magnitude in units of 2⁻¹⁰⁷⁴. -/
inductive Binary64 where
  | nan
  | infinite (negative : Bool)
  | finite (negative : Bool) (units : Nat)
  deriving DecidableEq

namespace Binary64

/-- The number 1 in units. -/
def unitsOfOne : Nat := twoPow 1074

/-- Magnitudes from 2¹⁰²⁴ on are infinite. -/
def unitsLimit : Nat := twoPow 2098

/-- The integer nearest to `num / den`, a half going to the even neighbour. -/
def roundHalfEven (num den : Nat) : Nat :=
  let q := num / den
  let r := num % den
  if 2 * r < den then q
  else if den < 2 * r then q + 1
  else if q % 2 = 0 then q else q + 1

/-- A significand has 53 bits: the exponent of two by which representable magnitudes near `n` units
are spaced. -/
def spacing (n : Nat) : Nat := n.log2 - 52

/-- The representable number of units nearest to `num / den`. -/
def roundUnits (num den : Nat) : Nat :=
  let k := spacing (num / den)
  roundHalfEven num (den * twoPow k) * twoPow k

/-- The double nearest to `num / den` units with that sign. -/
def ofUnits (negative : Bool) (num den : Nat) : Binary64 :=
  let m := roundUnits num den
  if m < unitsLimit then .finite negative m else .infinite negative

/-- Zero. -/
def zero : Binary64 := .finite false 0

instance : Inhabited Binary64 := ⟨zero⟩

/-- The double nearest to a natural number, an infinity when it is too large. -/
def ofNat (n : Nat) : Binary64 := ofUnits false (unitsOfOne * n) 1

/-- The double nearest to `digits · 10 ^ exponent`. Numbers that are far too large or too small are
decided by their size alone. -/
def ofDecimal (negative : Bool) (digits : Nat) (exponent : Int) : Binary64 :=
  let low : Int := digits.log2 * 3 / 10
  let high : Int := (digits.log2 + 1) * 31 / 100 + 1
  if digits = 0 then .finite negative 0
  else if 310 < low + exponent then .infinite negative
  else if high + exponent < -325 then .finite negative 0
  else if 0 ≤ exponent then
    ofUnits negative (unitsOfOne * (digits * tenPow exponent.toNat)) 1
  else
    ofUnits negative (unitsOfOne * digits) (tenPow (-exponent).toNat)

/-- The double nearest to a quotient of integers. -/
def ofRatio (num : Int) (den : Nat) : Binary64 :=
  ofUnits (num < 0) (unitsOfOne * num.natAbs) den

/-- What an integer was rounded to; an infinity means that it was too large. -/
def bounded : Binary64 → Except NumberError Binary64
  | .infinite _ => .error .integerTooLarge
  | x => .ok x

/-- The double nearest to an integer. -/
def ofInt (i : Int) : Except NumberError Binary64 := bounded (ofRatio i 1)

/-- The signed number of units. -/
def signed (negative : Bool) (units : Nat) : Int := if negative then -units else units

/-- The number with its sign changed. -/
def neg : Binary64 → Binary64
  | .nan => .nan
  | .infinite s => .infinite (!s)
  | .finite s m => .finite (!s) m

/-- The rounded sum. -/
def add : Binary64 → Binary64 → Binary64
  | .finite s m, .finite t n =>
    let sum := signed s m + signed t n
    if sum = 0 then .finite (s && t) 0 else ofUnits (sum < 0) sum.natAbs 1
  | .nan, _ => .nan
  | _, .nan => .nan
  | .infinite s, .infinite t => if s = t then .infinite s else .nan
  | .infinite s, _ => .infinite s
  | _, .infinite t => .infinite t

/-- The rounded difference. -/
def sub (x y : Binary64) : Binary64 := add x (neg y)

/-- The rounded product. -/
def mul : Binary64 → Binary64 → Binary64
  | .finite s m, .finite t n => ofUnits (s != t) (m * n) unitsOfOne
  | .nan, _ => .nan
  | _, .nan => .nan
  | .infinite s, .infinite t => .infinite (s != t)
  | .infinite s, .finite t n => if n = 0 then .nan else .infinite (s != t)
  | .finite s m, .infinite t => if m = 0 then .nan else .infinite (s != t)

/-- The rounded quotient. -/
def div : Binary64 → Binary64 → Binary64
  | .finite s m, .finite t n =>
    if n = 0 then (if m = 0 then .nan else .infinite (s != t))
    else ofUnits (s != t) (unitsOfOne * m) n
  | .nan, _ => .nan
  | _, .nan => .nan
  | .infinite _, .infinite _ => .nan
  | .infinite s, .finite t _ => .infinite (s != t)
  | .finite s _, .infinite t => .finite (s != t) 0

/-- Whether the first number is less; never with NaN. -/
def lt : Binary64 → Binary64 → Bool
  | .nan, _ => false
  | _, .nan => false
  | .infinite s, .infinite t => s && !t
  | .infinite s, .finite _ _ => s
  | .finite _ _, .infinite t => !t
  | .finite s m, .finite t n => signed s m < signed t n

/-- Whether the first number is at most the second; never with NaN. -/
def le : Binary64 → Binary64 → Bool
  | .nan, _ => false
  | _, .nan => false
  | x, y => !lt y x

/-- Whether the number is one of the two zeros. -/
def isZero : Binary64 → Bool
  | .finite _ m => m = 0
  | _ => false

/-- The rounded quotient by a divisor that is no zero. -/
def quotient (x y : Binary64) : Except NumberError Binary64 :=
  if isZero y then .error .divisionByZero else .ok (div x y)

/-- The integer part. -/
def truncate : Binary64 → Except NumberError Int
  | .nan => .error .nanToInteger
  | .infinite _ => .error .infinityToInteger
  | .finite s m => .ok (signed s (m / unitsOfOne))

/-- The first of the greatest numbers: a later one replaces it only when it is greater. -/
def maximum : Binary64 → List Binary64 → Binary64
  | best, [] => best
  | best, x :: xs => maximum (if lt best x then x else best) xs

/-- The number of the 64-bit pattern: sign, biased exponent, fraction. -/
def toBits : Binary64 → Nat
  | .nan => 0x7ff8000000000000
  | .infinite s => (if s then twoPow 63 else 0) + 0x7ff0000000000000
  | .finite s m =>
    let k := spacing m
    (if s then twoPow 63 else 0) +
      if m < twoPow 52 then m else (k + 1) * twoPow 52 + (m / twoPow k - twoPow 52)

end Binary64

end CakeMonitor
