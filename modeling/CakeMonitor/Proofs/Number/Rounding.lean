import CakeMonitor.Number.Binary64
import Mathlib.Algebra.Order.Ring.Nat
import Mathlib.Tactic.Linarith
import Mathlib.Tactic.Ring

/-!
# Where rounding overflows

A quotient is rounded to a magnitude below a power of two exactly when it is below the middle between
the greatest such magnitude and that power. From there on integers are too large for a double.

* `roundHalfEven_lt_iff`: when the nearest integer is below an even one.
* `roundUnits_lt_iff`: when the nearest representable magnitude is below a power of two.
* `ofInt_of_lt`, `ofInt_of_le`: the integers that become finite numbers, and those that are too large.
-/

namespace CakeMonitor.Binary64

/-! ## The nearest integer -/

theorem le_roundHalfEven (num den : Nat) : num / den ≤ roundHalfEven num den := by
  unfold roundHalfEven
  simp only
  split_ifs <;> omega

theorem roundHalfEven_le (num den : Nat) : roundHalfEven num den ≤ num / den + 1 := by
  unfold roundHalfEven
  simp only
  split_ifs <;> omega

/-- An odd quotient rounds up from the middle on. -/
theorem roundHalfEven_eq_odd {num den : Nat} (h : num / den % 2 = 1) :
    roundHalfEven num den = if 2 * (num % den) < den then num / den else num / den + 1 := by
  unfold roundHalfEven
  simp only
  split_ifs <;> omega

/-- **When the nearest integer is below an even one.** -/
theorem roundHalfEven_lt_iff {num den n : Nat} (hden : 0 < den) (hn : 0 < n) :
    roundHalfEven num den < 2 * n ↔ 2 * num < (4 * n - 1) * den := by
  have hsplit : num = den * (num / den) + num % den := (Nat.div_add_mod num den).symm
  have hrest : num % den < den := Nat.mod_lt num hden
  have hlow := le_roundHalfEven num den
  have hhigh := roundHalfEven_le num den
  obtain ⟨m, rfl⟩ : ∃ m, n = m + 1 := Nat.exists_eq_succ_of_ne_zero (Nat.ne_of_gt hn)
  have hbound : (4 * (m + 1) - 1) * den = den * (4 * m) + 3 * den := by
    rw [show 4 * (m + 1) - 1 = 4 * m + 3 by omega]
    ring
  rw [hbound]
  rcases Nat.lt_trichotomy (num / den) (2 * m + 1) with hlt | heq | hgt
  · have hle : den * (num / den) ≤ den * (2 * m) := Nat.mul_le_mul_left den (by omega)
    have hdouble : den * (4 * m) = 2 * (den * (2 * m)) := by ring
    omega
  · have hodd : num / den % 2 = 1 := by omega
    have hquot : den * (num / den) = den * (2 * m) + den := by
      rw [heq]
      ring
    have hdouble : den * (4 * m) = 2 * (den * (2 * m)) := by ring
    rw [roundHalfEven_eq_odd hodd]
    split_ifs with hr
    · omega
    · omega
  · have hge : den * (2 * m + 2) ≤ den * (num / den) := Nat.mul_le_mul_left den (by omega)
    have hdouble : den * (2 * m + 2) = den * (2 * m) + 2 * den := by ring
    have hfour : den * (4 * m) = 2 * (den * (2 * m)) := by ring
    omega

/-! ## The nearest representable magnitude -/

theorem twoPow_add (a b : Nat) : twoPow (a + b) = twoPow a * twoPow b := Nat.pow_add 2 a b

theorem twoPow_le_twoPow {a b : Nat} (h : a ≤ b) : twoPow a ≤ twoPow b :=
  Nat.pow_le_pow_right (by decide) h

/-- Magnitudes near `n` are multiples of a power of two with a significand of at most 53 bits. -/
theorem div_spacing_lt (n : Nat) : n / twoPow (spacing n) < twoPow 53 := by
  have hlog : n < twoPow (n.log2 + 1) := Nat.lt_log2_self
  rw [Nat.div_lt_iff_lt_mul (twoPow_pos _), ← twoPow_add]
  refine Nat.lt_of_lt_of_le hlog (twoPow_le_twoPow ?_)
  unfold spacing
  omega

theorem roundUnits_eq (num den : Nat) : roundUnits num den
    = roundHalfEven num (den * twoPow (spacing (num / den))) * twoPow (spacing (num / den)) := rfl

theorem roundUnits_zero (den : Nat) : roundUnits 0 den = 0 := by
  have hnearest (d : Nat) : roundHalfEven 0 d = 0 := by simp [roundHalfEven]
  rw [roundUnits_eq, hnearest, Nat.zero_mul]

/-- Rounding stays below the next power of two, or reaches it. -/
theorem roundUnits_le (num den : Nat) :
    roundUnits num den ≤ twoPow (53 + spacing (num / den)) := by
  have hround := roundHalfEven_le num (den * twoPow (spacing (num / den)))
  have hsignificand := div_spacing_lt (num / den)
  rw [Nat.div_div_eq_div_mul] at hsignificand
  rw [roundUnits_eq, twoPow_add]
  exact Nat.mul_le_mul_right _ (Nat.le_trans hround hsignificand)

/-- A magnitude is not rounded below its power of two. -/
theorem le_roundUnits {num den : Nat} (hne : num / den ≠ 0) : twoPow (num / den).log2 ≤ roundUnits num den := by
  have hspacing : spacing (num / den) ≤ (num / den).log2 := Nat.sub_le _ 52
  have hsplit : twoPow (num / den).log2
      = twoPow ((num / den).log2 - spacing (num / den)) * twoPow (spacing (num / den)) := by
    rw [← twoPow_add, Nat.sub_add_cancel hspacing]
  have hlow := le_roundHalfEven num (den * twoPow (spacing (num / den)))
  have hsignificand : twoPow ((num / den).log2 - spacing (num / den))
      ≤ num / den / twoPow (spacing (num / den)) := by
    rw [Nat.le_div_iff_mul_le (twoPow_pos _), ← hsplit]
    exact Nat.log2_self_le hne
  rw [Nat.div_div_eq_div_mul] at hsignificand
  rw [hsplit, roundUnits_eq]
  exact Nat.mul_le_mul_right _ (Nat.le_trans hsignificand hlow)

/-- **When a magnitude is rounded below a power of two**: if it is below the middle between that power
and the representable magnitude in front of it. -/
theorem roundUnits_lt_iff {num den : Nat} (hden : 0 < den) (f : Nat) :
    roundUnits num den < twoPow (54 + f) ↔ num < (twoPow 54 - 1) * twoPow f * den := by
  have hmiddle : twoPow 53 ≤ twoPow 54 - 1 := by decide
  have hlog : num / den + 1 ≤ twoPow ((num / den).log2 + 1) := Nat.lt_log2_self
  rcases Nat.lt_trichotomy (num / den).log2 (53 + f) with hlt | heq | hgt
  · -- the significand reaches at most the power before
    have hround : roundUnits num den < twoPow (54 + f) := by
      refine Nat.lt_of_le_of_lt (roundUnits_le num den) (Nat.pow_lt_pow_right (by decide) ?_)
      unfold spacing
      omega
    have hnum : num < (num / den + 1) * den := by
      rw [Nat.mul_comm]
      exact Nat.lt_mul_div_succ num hden
    have hquot : num / den + 1 ≤ (twoPow 54 - 1) * twoPow f := by
      refine Nat.le_trans hlog (Nat.le_trans (twoPow_le_twoPow (b := 53 + f) (by omega)) ?_)
      rw [twoPow_add]
      exact Nat.mul_le_mul_right _ hmiddle
    exact iff_of_true hround (Nat.lt_of_lt_of_le hnum (Nat.mul_le_mul_right den hquot))
  · -- the significand is rounded to an integer below or at the even number 2⁵³
    have hspacing : spacing (num / den) = f + 1 := by
      unfold spacing
      omega
    have hpow : twoPow (54 + f) = 2 * twoPow 52 * twoPow (f + 1) := by
      rw [show 54 + f = 53 + (f + 1) by omega, twoPow_add]
      rfl
    have hbound : (4 * twoPow 52 - 1) * (den * twoPow (f + 1))
        = 2 * ((twoPow 54 - 1) * twoPow f * den) := by
      rw [show 4 * twoPow 52 - 1 = twoPow 54 - 1 by rfl, twoPow_succ f]
      ring
    have hden' : 0 < den * twoPow (f + 1) := Nat.mul_pos hden (twoPow_pos _)
    rw [roundUnits_eq, hspacing, hpow, Nat.mul_lt_mul_right (twoPow_pos _),
      roundHalfEven_lt_iff hden' (twoPow_pos 52), hbound]
    omega
  · -- the significand is not rounded below the power
    have hne : num / den ≠ 0 := by
      intro hzero
      rw [hzero] at hgt
      exact absurd hgt (by simp)
    have hpow : twoPow (54 + f) ≤ twoPow (num / den).log2 := twoPow_le_twoPow (by omega)
    have hround : twoPow (54 + f) ≤ roundUnits num den :=
      Nat.le_trans hpow (le_roundUnits hne)
    have hquot : (twoPow 54 - 1) * twoPow f ≤ num / den := by
      refine Nat.le_trans ?_ (Nat.le_trans hpow (Nat.log2_self_le hne))
      rw [twoPow_add]
      exact Nat.mul_le_mul_right _ (Nat.sub_le _ _)
    have hnum : (twoPow 54 - 1) * twoPow f * den ≤ num :=
      Nat.le_trans (Nat.mul_le_mul_right den hquot) (Nat.div_mul_le_self num den)
    exact iff_of_false (Nat.not_lt.mpr hround) (Nat.not_lt.mpr hnum)

/-! ## Integers -/

/-- Integers of that magnitude and more are too large for a double: 2¹⁰²⁴ less half the distance of
the representable numbers before it. -/
def integerLimit : Nat := (twoPow 54 - 1) * twoPow 970

theorem unitsLimit_eq : unitsLimit = twoPow (54 + 2044) := rfl

theorem ofUnits_of_lt {negative : Bool} {num den : Nat} (h : roundUnits num den < unitsLimit) :
    ofUnits negative num den = .finite negative (roundUnits num den) := by
  unfold ofUnits
  simp only [if_pos h]

theorem ofUnits_of_le {negative : Bool} {num den : Nat} (h : unitsLimit ≤ roundUnits num den) :
    ofUnits negative num den = .infinite negative := by
  unfold ofUnits
  simp only [if_neg (Nat.not_lt.mpr h)]

theorem ofUnits_zero (negative : Bool) (den : Nat) : ofUnits negative 0 den = .finite negative 0 := by
  have hlimit : roundUnits 0 den < unitsLimit := by
    rw [roundUnits_zero]
    exact twoPow_pos _
  rw [ofUnits_of_lt hlimit, roundUnits_zero]

theorem roundUnits_integer_lt_iff (n : Nat) :
    roundUnits (unitsOfOne * n) 1 < unitsLimit ↔ n < integerLimit := by
  have hone : unitsOfOne = twoPow 1074 := rfl
  have hlimit : (twoPow 54 - 1) * twoPow (970 + 1074) * 1 = twoPow 1074 * integerLimit := by
    rw [twoPow_add, integerLimit, Nat.mul_one, ← Nat.mul_assoc, Nat.mul_comm]
  rw [unitsLimit_eq, roundUnits_lt_iff Nat.one_pos, hone, hlimit, Nat.mul_lt_mul_left (twoPow_pos _)]

/-- An integer that is not too large becomes a finite number. -/
theorem ofInt_of_lt {i : Int} (h : i.natAbs < integerLimit) :
    ofInt i = .ok (.finite (i < 0) (roundUnits (unitsOfOne * i.natAbs) 1)) := by
  have hround := (roundUnits_integer_lt_iff i.natAbs).mpr h
  rw [ofInt, ofRatio, ofUnits_of_lt hround]
  rfl

/-- **The integers that are too large for a double.** -/
theorem ofInt_of_le {i : Int} (h : integerLimit ≤ i.natAbs) : ofInt i = .error .integerTooLarge := by
  have hround : unitsLimit ≤ roundUnits (unitsOfOne * i.natAbs) 1 := by
    rw [← Nat.not_lt, roundUnits_integer_lt_iff]
    exact Nat.not_lt.mpr h
  rw [ofInt, ofRatio, ofUnits_of_le hround]
  rfl

/-! ## The factors between units of time -/

theorem ofNat_thousand : ofNat 1000 = .finite false (unitsOfOne * 1000) := by decide +kernel

theorem ofNat_million : ofNat 1000000 = .finite false (unitsOfOne * 1000000) := by decide +kernel

end CakeMonitor.Binary64
