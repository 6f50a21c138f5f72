import CakeMonitor.Proofs.Fallible
import CakeMonitor.Proofs.Number.Order

/-!
# Finite, positive and nonnegative numbers

What can become NaN, and what sign a quotient has. NaN is neither positive nor nonnegative; the negative
zero is nonnegative, as it equals zero.

* `Binary64.IsFinite`: neither NaN nor an infinity; these are the numbers with an integer part.
* `Binary64.sub_ne_nan`: a finite number less any other.
* `Binary64.Nonnegative`, `Binary64.nonnegative_div`: a quotient by a positive number.
-/

namespace CakeMonitor.Binary64

variable {x y : Binary64}

/-- Neither NaN nor an infinity. -/
def IsFinite : Binary64 → Prop
  | .finite _ _ => True
  | _ => False

instance : (x : Binary64) → Decidable x.IsFinite
  | .nan => isFalse id
  | .infinite _ => isFalse id
  | .finite _ _ => isTrue trivial

theorem IsFinite.ne_nan (h : x.IsFinite) : x ≠ .nan := by
  rintro rfl
  exact h

theorem succeeds_truncate {x : Binary64} : Succeeds x.truncate ↔ x.IsFinite := by
  cases x with
  | nan => exact iff_of_false (not_succeeds_error _) id
  | infinite s => exact iff_of_false (not_succeeds_error _) id
  | finite s m => exact iff_of_true (succeeds_ok _) trivial

/-! ## Differences -/

theorem ofUnits_ne_nan (negative : Bool) (num den : Nat) : ofUnits negative num den ≠ .nan := by
  unfold ofUnits
  dsimp only
  split_ifs
  · nofun
  · nofun

theorem add_ne_nan (hx : x.IsFinite) (hy : y ≠ .nan) : x.add y ≠ .nan := by
  cases x with
  | nan => exact hx.elim
  | infinite s => exact hx.elim
  | finite s m =>
    cases y with
    | nan => exact absurd rfl hy
    | infinite t => nofun
    | finite t n =>
      unfold add
      dsimp only
      split_ifs
      · nofun
      · exact ofUnits_ne_nan _ _ _

theorem neg_ne_nan (hy : y ≠ .nan) : y.neg ≠ .nan := by
  cases y with
  | nan => exact absurd rfl hy
  | infinite t => nofun
  | finite t n => nofun

/-- **A finite number less any other is a number**; only infinities cancel out to NaN. -/
theorem sub_ne_nan (hx : x.IsFinite) (hy : y ≠ .nan) : x.sub y ≠ .nan :=
  add_ne_nan hx (neg_ne_nan hy)

/-! ## Signs -/

/-- At least zero, hence not NaN. -/
def Nonnegative (x : Binary64) : Prop := zero.le x = true

instance (x : Binary64) : Decidable x.Nonnegative := inferInstanceAs (Decidable (zero.le x = true))

theorem Nonnegative.ne_nan (h : x.Nonnegative) : x ≠ .nan := by
  rintro rfl
  cases h

theorem nonnegative_finite (m : Nat) : (finite false m).Nonnegative := by
  simp [Nonnegative, le, lt, zero, signed]

theorem nonnegative_ofUnits (num den : Nat) : (ofUnits false num den).Nonnegative := by
  unfold ofUnits
  dsimp only
  split_ifs
  · exact nonnegative_finite _
  · rfl

/-- What is not NaN is at most zero or positive. -/
theorem zero_lt_of_not_le (hx : x ≠ .nan) (h : ¬ x.le .zero = true) : zero.lt x = true := by
  cases x with
  | nan => exact absurd rfl hx
  | infinite s => simpa [le, zero] using h
  | finite s m => simpa [le, zero] using h

/-- **A quotient by a positive number is nonnegative** when the dividend has no sign. -/
theorem nonnegative_div {m : Nat} (hy : zero.lt y = true) : ((finite false m).div y).Nonnegative := by
  cases y with
  | nan => cases hy
  | infinite t =>
    obtain rfl : t = false := by simpa [lt, zero] using hy
    exact nonnegative_finite 0
  | finite t n =>
    have hsigned : 0 < signed t n := by simpa [lt, zero, signed] using hy
    obtain ⟨rfl, hn⟩ : t = false ∧ n ≠ 0 := by
      cases t with
      | false => exact ⟨rfl, by simpa [signed, Nat.pos_iff_ne_zero] using hsigned⟩
      | true =>
        unfold signed at hsigned
        rw [if_pos rfl] at hsigned
        omega
    unfold div
    dsimp only
    rw [if_neg hn]
    exact nonnegative_ofUnits _ _

end CakeMonitor.Binary64
