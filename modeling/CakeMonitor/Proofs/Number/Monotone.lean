import CakeMonitor.Proofs.Number.Rounding
import CakeMonitor.Proofs.Number.Sign
import Mathlib.Data.Nat.Log

/-!
# Rounding keeps the order

A quotient that is not greater is not rounded to a greater number, whatever the two denominators are. So the
rounded number depends on the value of the quotient alone, and a number that was rounded once is rounded to
itself.

* `roundHalfEven_mono`, `roundUnits_mono`: the nearest integer and the nearest representable magnitude.
* `ofUnits_congr`: rounding depends on the value alone.
* `Binary64.part`: a number divided by an integer and rounded; `le_part` says that this keeps the order.
* `Binary64.Rounded`: the numbers that rounding leaves as they are, with `rounded_ofUnits`.
-/

namespace CakeMonitor.Binary64

variable {num den num' den' m n : Nat} {x y : Binary64} {s t : Bool}

/-! ## Magnitudes -/

theorem div_le_div_of_cross (hden : 0 < den) (hden' : 0 < den') (h : num * den' ≤ num' * den) :
    num / den ≤ num' / den' := by
  rw [Nat.le_div_iff_mul_le hden']
  refine Nat.le_of_mul_le_mul_right ?_ hden
  calc num / den * den' * den = num / den * den * den' := Nat.mul_right_comm _ _ _
    _ ≤ num * den' := Nat.mul_le_mul_right den' (Nat.div_mul_le_self num den)
    _ ≤ num' * den := h

/-- **The nearest integer of a quotient that is not greater is not greater.** -/
theorem roundHalfEven_mono (hden : 0 < den) (hden' : 0 < den') (h : num * den' ≤ num' * den) :
    roundHalfEven num den ≤ roundHalfEven num' den' := by
  rcases (div_le_div_of_cross hden hden' h).lt_or_eq with hlt | heq
  · calc roundHalfEven num den ≤ num / den + 1 := roundHalfEven_le num den
      _ ≤ num' / den' := hlt
      _ ≤ roundHalfEven num' den' := le_roundHalfEven num' den'
  · -- the quotients have one integer part, so the rests decide
    have hrest : num % den * den' ≤ num' % den' * den := by
      rw [← Nat.div_add_mod num den, ← Nat.div_add_mod num' den', heq, Nat.add_mul, Nat.add_mul,
        Nat.mul_right_comm den, Nat.mul_right_comm den', Nat.mul_comm den den'] at h
      exact Nat.le_of_add_le_add_left h
    have hhalf : den ≤ 2 * (num % den) → den' ≤ 2 * (num' % den') := fun hle => by
      refine Nat.le_of_mul_le_mul_right ?_ hden
      nlinarith
    have habove : den < 2 * (num % den) → den' < 2 * (num' % den') := fun hlt => by
      refine Nat.lt_of_mul_lt_mul_right (a := den) ?_
      nlinarith
    unfold roundHalfEven
    dsimp only
    rw [heq]
    split_ifs <;> omega

theorem spacing_mono (h : m ≤ n) : spacing m ≤ spacing n := by
  have hlog : m.log2 ≤ n.log2 := by
    rw [Nat.log2_eq_log_two, Nat.log2_eq_log_two]
    exact Nat.log_mono_right h
  exact Nat.sub_le_sub_right hlog 52

/-- **The nearest representable magnitude of a quotient that is not greater is not greater.** -/
theorem roundUnits_mono (hden : 0 < den) (hden' : 0 < den') (h : num * den' ≤ num' * den) :
    roundUnits num den ≤ roundUnits num' den' := by
  have hquot := div_le_div_of_cross hden hden' h
  rcases (spacing_mono hquot).lt_or_eq with hlt | heq
  · -- another power of two lies between
    have hlog : 53 + spacing (num / den) ≤ (num' / den').log2 := by
      unfold spacing at hlt ⊢
      omega
    have hne : num' / den' ≠ 0 := by
      intro hzero
      rw [hzero] at hlog
      exact absurd hlog (by simp)
    calc roundUnits num den ≤ twoPow (53 + spacing (num / den)) := roundUnits_le num den
      _ ≤ twoPow (num' / den').log2 := twoPow_le_twoPow hlog
      _ ≤ roundUnits num' den' := le_roundUnits hne
  · rw [roundUnits_eq, roundUnits_eq, heq]
    refine Nat.mul_le_mul_right _ (roundHalfEven_mono (Nat.mul_pos hden (twoPow_pos _))
      (Nat.mul_pos hden' (twoPow_pos _)) ?_)
    rw [← Nat.mul_assoc, ← Nat.mul_assoc]
    exact Nat.mul_le_mul_right _ h

/-- Rounding depends on the value of a quotient alone. -/
theorem roundUnits_congr (hden : 0 < den) (hden' : 0 < den') (h : num * den' = num' * den) :
    roundUnits num den = roundUnits num' den' :=
  Nat.le_antisymm (roundUnits_mono hden hden' h.le) (roundUnits_mono hden' hden h.ge)

theorem ofUnits_congr (hden : 0 < den) (hden' : 0 < den') (h : num * den' = num' * den) :
    ofUnits s num den = ofUnits s num' den' := by
  unfold ofUnits
  rw [roundUnits_congr hden hden' h]

/-! ## What was rounded once -/

theorem roundHalfEven_mul_left (hden : 0 < den) : roundHalfEven (den * n) den = n := by
  unfold roundHalfEven
  simp [Nat.mul_div_cancel_left n hden, hden]

/-- A magnitude is rounded to itself when it is a multiple of the power of two by which magnitudes near it are
spaced. -/
theorem roundUnits_of_dvd (h : twoPow (spacing m) ∣ m) : roundUnits m 1 = m := by
  obtain ⟨k, hk⟩ := h
  have hnearest : roundHalfEven (twoPow (spacing m) * k) (twoPow (spacing m)) = k :=
    roundHalfEven_mul_left (twoPow_pos _)
  rw [← hk] at hnearest
  rw [roundUnits_eq, Nat.div_one, Nat.one_mul, hnearest, Nat.mul_comm, ← hk]

/-- Rounding gives such a magnitude, also where the significand is rounded up to the next power of two. -/
theorem twoPow_spacing_dvd_roundUnits (num den : Nat) :
    twoPow (spacing (roundUnits num den)) ∣ roundUnits num den := by
  rcases (roundUnits_le num den).lt_or_eq with hlt | heq
  · have hspacing : spacing (roundUnits num den) ≤ spacing (num / den) := by
      by_cases hzero : roundUnits num den = 0
      · rw [hzero]
        exact Nat.zero_le _
      · have hlog : (roundUnits num den).log2 < 53 + spacing (num / den) := (Nat.log2_lt hzero).mpr hlt
        conv_lhs => unfold spacing
        omega
    exact (Nat.pow_dvd_pow 2 hspacing).trans (Dvd.intro_left _ (roundUnits_eq num den).symm)
  · rw [heq]
    refine Nat.pow_dvd_pow 2 ?_
    have hlog : (twoPow (53 + spacing (num / den))).log2 = 53 + spacing (num / den) := Nat.log2_two_pow
    unfold spacing at hlog ⊢
    omega

theorem roundUnits_roundUnits (num den : Nat) : roundUnits (roundUnits num den) 1 = roundUnits num den :=
  roundUnits_of_dvd (twoPow_spacing_dvd_roundUnits num den)

/-! ## Doubles -/

/-- The number divided by an integer and rounded. -/
def part (den : Nat) : Binary64 → Binary64
  | .finite s m => ofUnits s m den
  | x => x

/-- The number is rounded: rounding leaves it as it is. -/
def Rounded (x : Binary64) : Prop := x.part 1 = x

/-- **What rounding gives is rounded.** -/
theorem rounded_ofUnits (s : Bool) (num den : Nat) : (ofUnits s num den).Rounded := by
  by_cases hlt : roundUnits num den < unitsLimit
  · have hself : roundUnits (roundUnits num den) 1 < unitsLimit := by rwa [roundUnits_roundUnits]
    rw [ofUnits_of_lt hlt, Rounded, part, ofUnits_of_lt hself, roundUnits_roundUnits]
  · rw [ofUnits_of_le (Nat.not_lt.mp hlt)]
    rfl

@[simp] theorem part_nan (den : Nat) : part den .nan = .nan := rfl

@[simp] theorem part_infinite (den : Nat) (s : Bool) : part den (.infinite s) = .infinite s := rfl

@[simp] theorem part_finite (den : Nat) (s : Bool) (m : Nat) : part den (.finite s m) = ofUnits s m den := rfl

theorem finite_le_finite : (finite s m).le (finite t n) = true ↔ signed s m ≤ signed t n := by
  simp [le, lt]

theorem infinite_le_finite : (infinite s).le (finite t n) = true ↔ s = true := by simp [le, lt]

theorem finite_le_infinite : (finite s m).le (infinite t) = true ↔ t = false := by simp [le, lt]

theorem infinite_true_le (hy : y ≠ .nan) : (infinite true).le y = true := by
  cases y with
  | nan => exact absurd rfl hy
  | infinite t => simp [le, lt]
  | finite t n => exact infinite_le_finite.mpr rfl

theorem le_infinite_false (hx : x ≠ .nan) : x.le (infinite false) = true := by
  cases x with
  | nan => exact absurd rfl hx
  | infinite s => simp [le, lt]
  | finite s m => exact finite_le_infinite.mpr rfl

theorem signed_not (s : Bool) (m : Nat) : signed (!s) m = -signed s m := by cases s <;> simp [signed]

theorem neg_le_neg (h : x.le y = true) : y.neg.le x.neg = true := by
  rcases x with _ | (_ | _) | ⟨s, m⟩ <;> rcases y with _ | (_ | _) | ⟨t, n⟩ <;>
    simp_all [le, lt, neg, signed_not]

theorem neg_ofUnits (num den : Nat) : (ofUnits false num den).neg = ofUnits true num den := by
  unfold ofUnits
  dsimp only
  split_ifs
  · rfl
  · rfl

/-- Without a sign the greater magnitude is the greater number; one that is too large is infinite. -/
theorem ofUnits_mono (h : roundUnits num den ≤ roundUnits num' den') :
    (ofUnits false num den).le (ofUnits false num' den') = true := by
  rcases Nat.lt_or_ge (roundUnits num' den') unitsLimit with hlt | hge
  · rw [ofUnits_of_lt hlt, ofUnits_of_lt (Nat.lt_of_le_of_lt h hlt)]
    exact finite_le_finite.mpr (Int.ofNat_le.mpr h)
  · rw [ofUnits_of_le hge]
    exact le_infinite_false (ofUnits_ne_nan _ _ _)

/-- **Rounding keeps the order**, on both sides of zero. -/
theorem le_ofUnits (hden : 0 < den) (h : signed s m ≤ signed t n) :
    (ofUnits s m den).le (ofUnits t n den) = true := by
  have hmono {a b : Nat} (hle : a ≤ b) : (ofUnits false a den).le (ofUnits false b den) = true :=
    ofUnits_mono (roundUnits_mono hden hden (Nat.mul_le_mul_right den hle))
  cases s with
  | false =>
    cases t with
    | false => exact hmono (Int.ofNat_le.mp h)
    | true =>
      -- only the two zeros are ordered like this
      obtain ⟨rfl, rfl⟩ : m = 0 ∧ n = 0 := by
        simp only [signed, Bool.false_eq_true, if_true, if_false] at h
        omega
      rw [ofUnits_zero, ofUnits_zero]
      decide
  | true =>
    cases t with
    | false =>
      have hpositive (k : Nat) : zero.le (ofUnits false k den) = true := nonnegative_ofUnits k den
      have hzeros : zero.neg.le zero = true := by decide
      rw [← neg_ofUnits]
      exact le_trans (neg_le_neg (hpositive m)) (le_trans hzeros (hpositive n))
    | true =>
      rw [← neg_ofUnits, ← neg_ofUnits]
      exact neg_le_neg (hmono (Int.ofNat_le.mp (Int.neg_le_neg_iff.mp h)))

/-- **Dividing by an integer and rounding keeps the order.** -/
theorem le_part (hden : 0 < den) (h : x.le y = true) : (x.part den).le (y.part den) = true := by
  cases x with
  | nan => cases h
  | infinite s =>
    cases y with
    | nan => cases h
    | infinite t => exact h
    | finite t n =>
      obtain rfl := infinite_le_finite.mp h
      rw [part_infinite, part_finite]
      exact infinite_true_le (ofUnits_ne_nan t n den)
  | finite s m =>
    cases y with
    | nan => cases h
    | infinite t =>
      obtain rfl := finite_le_infinite.mp h
      rw [part_infinite, part_finite]
      exact le_infinite_false (ofUnits_ne_nan s m den)
    | finite t n =>
      rw [part_finite, part_finite]
      exact le_ofUnits hden (finite_le_finite.mp h)

/-- **Numbers that are in order after rounding were in order before**, though they may have been equal. -/
theorem le_of_part_lt (hden : 0 < den) (h : (x.part den).lt (y.part den) = true) : x.le y = true := by
  have hx : x ≠ .nan := by
    rintro rfl
    cases h
  have hy : y ≠ .nan := by
    rintro rfl
    obtain ⟨-, -, q, hq, -⟩ := lt_iff.mp h
    cases hq
  refine le_iff_not_lt.mpr ⟨hx, hy, fun hlt => ?_⟩
  have hle := le_part hden (le_of_lt hlt)
  exact (le_iff_not_lt.mp hle).2.2 h

end CakeMonitor.Binary64
