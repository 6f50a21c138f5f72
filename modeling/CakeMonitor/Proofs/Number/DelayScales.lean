import CakeMonitor.MultiQueue
import CakeMonitor.Proofs.Number.Monotone
import CakeMonitor.Proofs.Number.OddDelay

/-!
# Delays on two scales

Merging compares delays in microseconds, and the history takes their maximum in milliseconds. On either scale
some units are multiplied or divided and rounded, and others are taken as they are. Both scales come from one
length all the same: the microseconds are the exact length rounded, and the milliseconds are a thousandth of it
rounded. So the scales never put two delays in opposite orders, though either one may take them for equal.

* `Delay.length`: the microseconds of a delay before any rounding.
* `toMicroseconds_eq`, `toMilliseconds_eq`: the two scales from the length.
* `Numeral.rounded_real?`: what a numeral spells is rounded already.
* `Delay.scales_agree`: the order of two delays, and of the worst of some delays and one that it beat.
-/

namespace CakeMonitor

/-! ## Products with whole numbers -/

namespace Binary64

variable {x : Binary64} {i j k : Nat}

/-- The number multiplied by a whole one and not rounded. -/
def times (k : Nat) : Binary64 → Binary64
  | .finite s m => .finite s (m * k)
  | x => x

theorem times_one (x : Binary64) : x.times 1 = x := by
  cases x with
  | nan => rfl
  | infinite s => rfl
  | finite s m => exact congrArg (finite s) (Nat.mul_one m)

/-- The product with a whole number is the exact one, rounded. -/
theorem mul_whole (hk : 0 < k) : x.mul (finite false (unitsOfOne * k)) = (x.times k).part 1 := by
  have hone : 0 < unitsOfOne := twoPow_pos _
  cases x with
  | nan => rfl
  | infinite s =>
    have hk : unitsOfOne * k ≠ 0 := Nat.ne_of_gt (Nat.mul_pos hone hk)
    unfold mul
    dsimp only
    rw [if_neg hk, Bool.bne_false]
    rfl
  | finite s m =>
    show ofUnits (s != false) (m * (unitsOfOne * k)) unitsOfOne = ofUnits s (m * k) 1
    rw [Bool.bne_false]
    refine ofUnits_congr hone Nat.one_pos ?_
    rw [Nat.mul_one, Nat.mul_left_comm, Nat.mul_comm]

/-- The quotient by a whole number is the exact one, rounded. -/
theorem div_whole (hk : 0 < k) : x.div (finite false (unitsOfOne * k)) = x.part k := by
  have hone : 0 < unitsOfOne := twoPow_pos _
  cases x with
  | nan => rfl
  | infinite s => exact congrArg infinite (Bool.bne_false s)
  | finite s m =>
    have hne : unitsOfOne * k ≠ 0 := Nat.ne_of_gt (Nat.mul_pos hone hk)
    unfold div
    dsimp only
    rw [if_neg hne, Bool.bne_false, part_finite]
    refine ofUnits_congr (Nat.mul_pos hone hk) hk ?_
    rw [Nat.mul_assoc, Nat.mul_left_comm]

/-- A factor may be cancelled before rounding. -/
theorem part_times_mul (hi : 0 < i) (hj : 0 < j) : (x.times (k * j)).part (i * j) = (x.times k).part i := by
  cases x with
  | nan => rfl
  | infinite s => rfl
  | finite s m =>
    rw [times, times, part_finite, part_finite]
    refine ofUnits_congr (Nat.mul_pos hi hj) hi ?_
    rw [← Nat.mul_assoc, Nat.mul_right_comm, Nat.mul_assoc]

end Binary64

/-! ## What numerals spell -/

namespace Numeral

open Binary64 (Rounded ofDecimal)

theorem rounded_zero (s : Bool) : Rounded (.finite s 0) := Binary64.ofUnits_zero s 1

theorem rounded_ofDecimal (negative : Bool) (digits : Nat) (e : Int) :
    (ofDecimal negative digits e).Rounded := by
  unfold ofDecimal
  dsimp only
  split_ifs
  · exact rounded_zero negative
  · rfl
  · exact rounded_zero negative
  · exact Binary64.rounded_ofUnits _ _ _
  · exact Binary64.rounded_ofUnits _ _ _

/-- **A numeral spells a number that is rounded already.** -/
theorem rounded_real? {t : Text} {x : Binary64} (h : real? t = some x) : x.Rounded := by
  obtain ⟨cs, -, hbare⟩ := Option.bind_eq_some_iff.mp h
  unfold bare? at hbare
  dsimp only at hbare
  split_ifs at hbare
  · obtain rfl := Option.some.inj hbare
    rfl
  · obtain rfl := Option.some.inj hbare
    rfl
  · obtain ⟨⟨digits, e⟩, -, rfl⟩ := Option.map_eq_some_iff.mp hbare
    exact rounded_ofDecimal _ digits e

end Numeral

/-- The microseconds in a unit of time. -/
def TimeUnit.micros : TimeUnit → Nat
  | .us => 1
  | .ms => 1000
  | .s => 1000000

namespace Delay

open Binary64 (Rounded times part part_times_mul)
open MultiQueue (worstDelay)

/-! ## Lengths -/

/-- The microseconds of the delay before any rounding. -/
def length (d : Delay) : Binary64 := d.number.times d.unit.micros

/-- **The microseconds are the length, rounded.** -/
theorem toMicroseconds_eq {d : Delay} (h : d.number.Rounded) : d.toMicroseconds = d.length.part 1 := by
  obtain ⟨x, unit⟩ := d
  unfold toMicroseconds length thousand
  rw [Binary64.ofNat_thousand, Binary64.ofNat_million]
  cases unit with
  | us => exact (Binary64.times_one x).symm ▸ h.symm
  | ms => exact Binary64.mul_whole (by decide)
  | s => exact Binary64.mul_whole (by decide)

/-- **The milliseconds are a thousandth of the length, rounded.** -/
theorem toMilliseconds_eq {d : Delay} (h : d.number.Rounded) : d.toMilliseconds = d.length.part 1000 := by
  obtain ⟨x, unit⟩ := d
  unfold toMilliseconds length thousand
  rw [Binary64.ofNat_thousand]
  cases unit with
  | us =>
    show x.div _ = (x.times 1).part 1000
    rw [Binary64.div_whole (by decide), Binary64.times_one]
  | ms =>
    show x = (x.times (1 * 1000)).part (1 * 1000)
    rw [part_times_mul (by decide) (by decide), Binary64.times_one]
    exact h.symm
  | s =>
    show x.mul _ = (x.times (1000 * 1000)).part (1 * 1000)
    rw [Binary64.mul_whole (by decide), part_times_mul (by decide) (by decide)]

/-- Every token has a length, zero when it is no delay. -/
theorem exists_length (t : Text) : ∃ x : Binary64, microseconds t = x.part 1 ∧ milliseconds t = x.part 1000 := by
  unfold microseconds milliseconds
  cases hread : read? t with
  | none => exact ⟨.zero, (Numeral.rounded_zero false).symm, (Binary64.ofUnits_zero false 1000).symm⟩
  | some d =>
    obtain ⟨_, -, hreal⟩ := read?_eq_some_iff.mp hread
    have hrounded := Numeral.rounded_real? hreal
    exact ⟨_, toMicroseconds_eq hrounded, toMilliseconds_eq hrounded⟩

/-! ## The order -/

/-- **The two scales order delays alike.** A delay that is longer in microseconds is not shorter in
milliseconds. So the worst of some delays is in milliseconds not below one that it beat. -/
theorem scales_agree :
    (∀ a b, (microseconds b).lt (microseconds a) = true → (milliseconds b).le (milliseconds a) = true) ∧
      ∀ ds, ∀ d ∈ ds, (microseconds d).lt (microseconds (worstDelay ds)) = true →
        (milliseconds d).le (milliseconds (worstDelay ds)) = true := by
  have hagree (a b : Text) (h : (microseconds b).lt (microseconds a) = true) :
      (milliseconds b).le (milliseconds a) = true := by
    obtain ⟨x, husec, hmsec⟩ := exists_length a
    obtain ⟨y, husec', hmsec'⟩ := exists_length b
    rw [husec, husec'] at h
    rw [hmsec, hmsec']
    exact Binary64.le_part (by decide) (Binary64.le_of_part_lt Nat.one_pos h)
  exact ⟨hagree, fun ds d _ => hagree (worstDelay ds) d⟩

/-- Delays of almost the same length in all units. -/
def nearDelays : List Text := ["999us", "1.001ms", "0.001s", "1000.5us"]

/-- A delay that is infinite in microseconds alone, one that vanishes in milliseconds, and the worst of
some. -/
theorem scales_agree_extremes :
    ((microseconds "1e302s").lt (microseconds "1e306ms") = true ∧
      (milliseconds "1e302s").le (milliseconds "1e306ms") = true) ∧
    ((microseconds "0us").lt (microseconds "5e-324us") = true ∧
      (milliseconds "0us").le (milliseconds "5e-324us") = true) ∧
    worstDelay nearDelays = "1.001ms" ∧ ("1000.5us" : Text) ∈ nearDelays ∧
      (microseconds "1000.5us").lt (microseconds "1.001ms") = true ∧
      (milliseconds "1000.5us").le (milliseconds "1.001ms") = true := by
  obtain ⟨hpair, hworst⟩ := scales_agree
  have hinfinite : (microseconds "1e302s").lt (microseconds "1e306ms") = true := by decide +kernel
  have hvanishes : (microseconds "0us").lt (microseconds "5e-324us") = true := by decide +kernel
  have hnear : worstDelay nearDelays = "1.001ms" := by decide +kernel
  have hmem : ("1000.5us" : Text) ∈ nearDelays := by decide
  have hbeaten : (microseconds "1000.5us").lt (microseconds "1.001ms") = true := by decide +kernel
  have hlonger := hworst nearDelays "1000.5us" hmem (by rwa [hnear])
  rw [hnear] at hlonger
  exact ⟨⟨hinfinite, hpair _ _ hinfinite⟩, ⟨hvanishes, hpair _ _ hvanishes⟩, hnear, hmem, hbeaten, hlonger⟩

end Delay

end CakeMonitor
