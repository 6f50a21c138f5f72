import CakeMonitor.Number.Binary64
import Mathlib.Data.Prod.Lex

/-!
# The order of double precision numbers

Comparing doubles is comparing their places among the integers between two infinities. NaN has no place,
so it compares with nothing; the two zeros share one.

* `Binary64.place?`: the place of a number.
* `Binary64.lt_iff`, `Binary64.le_iff`: the comparisons are those of the places.
* `Binary64.Equals`: the numbers are equal, with NaN equal to nothing.
-/

namespace CakeMonitor.Binary64

variable {x y z : Binary64}

/-- Where a number stands: a finite one at its signed units, the infinities a level below and a level
above all of them. NaN stands nowhere. -/
def place? : Binary64 → Option (Int ×ₗ Int)
  | .nan => none
  | .infinite true => some (toLex (-1, 0))
  | .infinite false => some (toLex (1, 0))
  | .finite s m => some (toLex (0, signed s m))

theorem lt_iff : x.lt y = true ↔ ∃ p ∈ x.place?, ∃ q ∈ y.place?, p < q := by
  rcases x with _ | (_ | _) | ⟨s, m⟩ <;> rcases y with _ | (_ | _) | ⟨t, n⟩ <;>
    simp [lt, place?, Prod.Lex.toLex_lt_toLex]

theorem le_iff : x.le y = true ↔ ∃ p ∈ x.place?, ∃ q ∈ y.place?, p ≤ q := by
  rcases x with _ | (_ | _) | ⟨s, m⟩ <;> rcases y with _ | (_ | _) | ⟨t, n⟩ <;>
    simp [le, lt, place?, Prod.Lex.toLex_le_toLex]

theorem le_of_lt (h : x.lt y = true) : x.le y = true := by
  obtain ⟨p, hp, q, hq, hpq⟩ := lt_iff.mp h
  exact le_iff.mpr ⟨p, hp, q, hq, hpq.le⟩

theorem le_trans (hxy : x.le y = true) (hyz : y.le z = true) : x.le z = true := by
  obtain ⟨p, hp, q, hq, hpq⟩ := le_iff.mp hxy
  obtain ⟨q', hq', r, hr, hqr⟩ := le_iff.mp hyz
  obtain rfl := Option.mem_unique hq hq'
  exact le_iff.mpr ⟨p, hp, r, hr, hpq.trans hqr⟩

theorem lt_of_le_of_lt (hxy : x.le y = true) (hyz : y.lt z = true) : x.lt z = true := by
  obtain ⟨p, hp, q, hq, hpq⟩ := le_iff.mp hxy
  obtain ⟨q', hq', r, hr, hqr⟩ := lt_iff.mp hyz
  obtain rfl := Option.mem_unique hq hq'
  exact lt_iff.mpr ⟨p, hp, r, hr, hpq.trans_lt hqr⟩

theorem lt_of_lt_of_le (hxy : x.lt y = true) (hyz : y.le z = true) : x.lt z = true := by
  obtain ⟨p, hp, q, hq, hpq⟩ := lt_iff.mp hxy
  obtain ⟨q', hq', r, hr, hqr⟩ := le_iff.mp hyz
  obtain rfl := Option.mem_unique hq hq'
  exact lt_iff.mpr ⟨p, hp, r, hr, hpq.trans_le hqr⟩

/-- Comparable numbers are two numbers that are not NaN, the second not less than the first. -/
theorem le_iff_not_lt : x.le y = true ↔ x ≠ .nan ∧ y ≠ .nan ∧ ¬ y.lt x = true := by
  rcases x with _ | (_ | _) | ⟨s, m⟩ <;> rcases y with _ | (_ | _) | ⟨t, n⟩ <;> simp [le, lt]

/-- What is comparable at all is not less than itself. -/
theorem le_self_right (h : x.le y = true) : y.le y = true := by
  obtain ⟨-, -, q, hq, -⟩ := le_iff.mp h
  exact le_iff.mpr ⟨q, hq, q, hq, le_rfl⟩

/-- Of two numbers that are not NaN, one that is not less is at least as large. -/
theorem le_of_not_lt (hx : x.le x = true) (hy : y.le y = true) (h : ¬ x.lt y = true) :
    y.le x = true := by
  obtain ⟨p, hp, -⟩ := le_iff.mp hx
  obtain ⟨q, hq, -⟩ := le_iff.mp hy
  exact le_iff.mpr ⟨q, hq, p, hp, not_lt.mp fun hlt => h (lt_iff.mpr ⟨p, hp, q, hq, hlt⟩)⟩

/-- The numbers are equal: so are the two zeros, and NaN equals nothing. -/
def Equals (x y : Binary64) : Prop := x.le y = true ∧ y.le x = true

instance (x y : Binary64) : Decidable (Equals x y) :=
  inferInstanceAs (Decidable (x.le y = true ∧ y.le x = true))

end CakeMonitor.Binary64
