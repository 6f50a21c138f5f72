import CakeMonitor.Proofs.Number.Rounding
import CakeMonitor.Proofs.Number.Sign
import CakeMonitor.Quantity

/-!
# Delays that are no time

A delay is read as a real before its unit, and a real may be NaN or negative. Such a token is a number with a
unit all the same, so it does not count as zero as other odd tokens do, and what it spells goes on.

* `Numeral.SpellsNan`, `Numeral.SpellsNegative`: the numerals of NaN and of negative numbers.
* `Delay.Odd`: the tokens with such a numeral.
* `Delay.nonnegative_microseconds_iff`, `Delay.nonnegative_milliseconds`: all others are a nonnegative number
  on either scale.
-/

namespace CakeMonitor

/-! ## The sign of products and quotients -/

namespace Binary64

variable {x : Binary64}

theorem nonnegative_finite_true {m : Nat} : (finite true m).Nonnegative ↔ m = 0 := by
  simp [Nonnegative, le, lt, zero, signed]

/-- A whole unit or more is not rounded to none. -/
theorem roundUnits_ne_zero {num den : Nat} (h : num / den ≠ 0) : roundUnits num den ≠ 0 :=
  Nat.ne_of_gt (Nat.lt_of_lt_of_le (twoPow_pos _) (le_roundUnits h))

/-- What is rounded is finite or overflows, and keeps its sign. -/
theorem ofUnits_cases (negative : Bool) (num den : Nat) :
    ofUnits negative num den = .finite negative (roundUnits num den) ∨
      ofUnits negative num den = .infinite negative := by
  unfold ofUnits
  dsimp only
  split_ifs
  · exact .inl rfl
  · exact .inr rfl

theorem div_eq_zero_of_nonnegative {num den : Nat} (h : (ofUnits true num den).Nonnegative) :
    num / den = 0 := by
  by_contra hne
  rcases ofUnits_cases true num den with hunits | hunits
  · rw [hunits] at h
    exact roundUnits_ne_zero hne (nonnegative_finite_true.mp h)
  · rw [hunits] at h
    cases h

/-- **A product with a number of at least one has the sign of the other factor**, which cannot vanish. -/
theorem nonnegative_mul_iff {n : Nat} (hn : unitsOfOne ≤ n) :
    (x.mul (finite false n)).Nonnegative ↔ x.Nonnegative := by
  have hone : 0 < unitsOfOne := twoPow_pos _
  cases x with
  | nan => exact Iff.rfl
  | infinite s =>
    have hn : n ≠ 0 := by omega
    unfold mul
    dsimp only
    rw [if_neg hn, Bool.bne_false]
  | finite s m =>
    show (ofUnits (s != false) (m * n) unitsOfOne).Nonnegative ↔ _
    rw [Bool.bne_false]
    cases s with
    | false => exact iff_of_true (nonnegative_ofUnits _ _) (nonnegative_finite m)
    | true =>
      rw [nonnegative_finite_true]
      constructor
      · intro h
        have hvanishes := div_eq_zero_of_nonnegative h
        rw [Nat.div_eq_zero_iff] at hvanishes
        by_contra hm
        have hle : n ≤ m * n := Nat.le_mul_of_pos_left n (Nat.pos_of_ne_zero hm)
        omega
      · rintro rfl
        rw [Nat.zero_mul, ofUnits_zero]
        exact nonnegative_finite_true.mpr rfl

/-- A quotient by a positive number of a number that is not negative. -/
theorem Nonnegative.div {n : Nat} (hx : x.Nonnegative) (hn : n ≠ 0) : (x.div (finite false n)).Nonnegative := by
  cases x with
  | nan => cases hx
  | infinite s =>
    show (infinite (s != false)).Nonnegative
    rwa [Bool.bne_false]
  | finite s m =>
    show (if n = 0 then _ else ofUnits (s != false) (unitsOfOne * m) n).Nonnegative
    rw [if_neg hn, Bool.bne_false]
    cases s with
    | false => exact nonnegative_ofUnits _ _
    | true =>
      obtain rfl := nonnegative_finite_true.mp hx
      rw [Nat.mul_zero, ofUnits_zero]
      exact nonnegative_finite_true.mpr rfl

end Binary64

/-! ## Numerals of NaN and of negative numbers -/

namespace Numeral

open Binary64 (ofDecimal)

/-- A numeral spells NaN: its name in any letters, behind a sign or none. -/
def SpellsNan (cs : List Char) : Prop := (splitSign cs).2.map Char.toLower = ['n', 'a', 'n']

/-- A numeral spells a negative number: a minus sign, and then the name of infinity or a decimal that is not
rounded to zero. -/
def SpellsNegative (cs : List Char) : Prop :=
  ∃ rest, cs = '-' :: rest ∧
    ((rest.map Char.toLower = ['i', 'n', 'f'] ∨
        rest.map Char.toLower = ['i', 'n', 'f', 'i', 'n', 'i', 't', 'y']) ∨
      ∃ digits e, decimal? rest = some (digits, e) ∧ (ofDecimal true digits e).isZero = false)

theorem splitSign_eq_true {cs rest : List Char} (h : splitSign cs = (true, rest)) : cs = '-' :: rest := by
  unfold splitSign at h
  split at h
  · exact congrArg _ (Prod.mk.inj h).2
  · cases h
  · cases h

/-- A decimal is finite or overflows, and keeps its sign. -/
theorem ofDecimal_cases (negative : Bool) (digits : Nat) (e : Int) :
    (∃ m, ofDecimal negative digits e = .finite negative m) ∨
      ofDecimal negative digits e = .infinite negative := by
  have hunits (num den : Nat) : (∃ m, Binary64.ofUnits negative num den = .finite negative m) ∨
      Binary64.ofUnits negative num den = .infinite negative :=
    (Binary64.ofUnits_cases negative num den).imp_left fun h => ⟨_, h⟩
  unfold ofDecimal
  dsimp only
  split_ifs
  · exact .inl ⟨_, rfl⟩
  · exact .inr rfl
  · exact .inl ⟨_, rfl⟩
  · exact hunits _ _
  · exact hunits _ _

theorem nonnegative_ofDecimal {negative : Bool} {digits : Nat} {e : Int} :
    (ofDecimal negative digits e).Nonnegative ↔
      negative = false ∨ (ofDecimal negative digits e).isZero = true := by
  rcases ofDecimal_cases negative digits e with ⟨m, h⟩ | h
  · rw [h]
    cases negative with
    | false => exact iff_of_true (Binary64.nonnegative_finite m) (.inl rfl)
    | true => simp [Binary64.nonnegative_finite_true, Binary64.isZero]
  · rw [h]
    cases negative <;> decide

/-- **The numerals that spell no nonnegative number** are those of NaN and of negative numbers. -/
theorem exists_bare_iff {cs : List Char} :
    (∃ x, bare? cs = some x ∧ ¬ x.Nonnegative) ↔ SpellsNan cs ∨ SpellsNegative cs := by
  obtain ⟨negative, rest, hsplit⟩ : ∃ negative rest, splitSign cs = (negative, rest) := ⟨_, _, rfl⟩
  unfold bare? SpellsNan
  rw [hsplit]
  dsimp only
  by_cases hnan : rest.map Char.toLower = ['n', 'a', 'n']
  · rw [if_pos hnan]
    exact iff_of_true ⟨.nan, rfl, by decide⟩ (.inl hnan)
  rw [if_neg hnan, or_iff_right hnan]
  -- behind a sign that is no minus nothing is negative
  have hminus : negative = false → ¬ SpellsNegative cs := by
    rintro rfl ⟨rest', rfl, -⟩
    cases hsplit
  by_cases hinf : rest.map Char.toLower = ['i', 'n', 'f'] ∨
      rest.map Char.toLower = ['i', 'n', 'f', 'i', 'n', 'i', 't', 'y']
  · rw [if_pos hinf]
    cases negative with
    | false =>
      refine iff_of_false ?_ (hminus rfl)
      rintro ⟨x, hx, hneg⟩
      obtain rfl := Option.some.inj hx
      exact hneg rfl
    | true => exact iff_of_true ⟨_, rfl, by decide⟩ ⟨rest, splitSign_eq_true hsplit, .inl hinf⟩
  rw [if_neg hinf]
  constructor
  · rintro ⟨x, hx, hneg⟩
    obtain ⟨⟨digits, e⟩, hdecimal, rfl⟩ := Option.map_eq_some_iff.mp hx
    rw [nonnegative_ofDecimal, not_or, Bool.not_eq_false, Bool.not_eq_true] at hneg
    obtain ⟨rfl, hzero⟩ := hneg
    exact ⟨rest, splitSign_eq_true hsplit, .inr ⟨digits, e, hdecimal, hzero⟩⟩
  · rintro ⟨rest', rfl, hspells⟩
    obtain ⟨rfl, rfl⟩ := Prod.mk.inj hsplit
    obtain ⟨digits, e, hdecimal, hzero⟩ := hspells.resolve_left hinf
    refine ⟨_, Option.map_eq_some_iff.mpr ⟨_, hdecimal, rfl⟩, ?_⟩
    rw [nonnegative_ofDecimal, hzero]
    exact not_or.mpr ⟨nofun, nofun⟩

end Numeral

/-! ## Odd delays -/

namespace Delay

/-- **A delay that is no time**: a number with a unit, but the number is NaN or negative. -/
def Odd (t : Text) : Prop :=
  ∃ number unit cs, TimeUnit.split? t.trim = some (number, unit) ∧
    Numeral.dropUnderscores false ((number.trimBy CodePoint.isPadding).map Numeral.fold) = some cs ∧
    (Numeral.SpellsNan cs ∨ Numeral.SpellsNegative cs)

theorem read?_eq_some_iff {t : Text} {d : Delay} : read? t = some d ↔
    ∃ number, TimeUnit.split? t.trim = some (number, d.unit) ∧ Numeral.real? number = some d.number := by
  constructor
  · intro h
    obtain ⟨⟨number, unit⟩, hsplit, hnumber⟩ := Option.bind_eq_some_iff.mp h
    obtain ⟨x, hreal, hd⟩ := Option.bind_eq_some_iff.mp hnumber
    obtain rfl := Option.some.inj hd
    exact ⟨number, hsplit, hreal⟩
  · rintro ⟨number, hsplit, hreal⟩
    exact Option.bind_eq_some_iff.mpr ⟨_, hsplit, Option.bind_eq_some_iff.mpr ⟨_, hreal, rfl⟩⟩

theorem odd_iff {t : Text} : Odd t ↔ ∃ d, read? t = some d ∧ ¬ d.number.Nonnegative := by
  constructor
  · rintro ⟨number, unit, cs, hsplit, hcs, hodd⟩
    obtain ⟨x, hx, hneg⟩ := Numeral.exists_bare_iff.mpr hodd
    have hreal : Numeral.real? number = some x := Option.bind_eq_some_iff.mpr ⟨cs, hcs, hx⟩
    exact ⟨⟨x, unit⟩, read?_eq_some_iff.mpr ⟨number, hsplit, hreal⟩, hneg⟩
  · rintro ⟨d, hread, hneg⟩
    obtain ⟨number, hsplit, hreal⟩ := read?_eq_some_iff.mp hread
    obtain ⟨cs, hcs, hbare⟩ := Option.bind_eq_some_iff.mp hreal
    exact ⟨number, d.unit, cs, hsplit, hcs, Numeral.exists_bare_iff.mp ⟨_, hbare, hneg⟩⟩

theorem nonnegative_toMicroseconds {d : Delay} : d.toMicroseconds.Nonnegative ↔ d.number.Nonnegative := by
  unfold toMicroseconds thousand
  cases d.unit with
  | us => exact Iff.rfl
  | ms =>
    dsimp only
    rw [Binary64.ofNat_thousand, Binary64.nonnegative_mul_iff (Nat.le_mul_of_pos_right _ (by decide))]
  | s =>
    dsimp only
    rw [Binary64.ofNat_million, Binary64.nonnegative_mul_iff (Nat.le_mul_of_pos_right _ (by decide))]

theorem nonnegative_toMilliseconds {d : Delay} (h : d.number.Nonnegative) : d.toMilliseconds.Nonnegative := by
  have hthousand : Binary64.unitsOfOne ≤ Binary64.unitsOfOne * 1000 := Nat.le_mul_of_pos_right _ (by decide)
  unfold toMilliseconds thousand
  rw [Binary64.ofNat_thousand]
  cases d.unit with
  | us => exact h.div (Nat.ne_of_gt (Nat.lt_of_lt_of_le (twoPow_pos _) hthousand))
  | ms => exact h
  | s => exact (Binary64.nonnegative_mul_iff hthousand).mpr h

/-- **The microseconds of a token are a nonnegative number exactly when it is not odd.** -/
theorem nonnegative_microseconds_iff {t : Text} : (microseconds t).Nonnegative ↔ ¬ Odd t := by
  rw [odd_iff]
  unfold microseconds
  cases hread : read? t with
  | none => exact iff_of_true (by decide) nofun
  | some d =>
    show d.toMicroseconds.Nonnegative ↔ _
    rw [nonnegative_toMicroseconds]
    simp

/-- On the scale of milliseconds a negative delay may be too short to be seen, so only one direction holds. -/
theorem nonnegative_milliseconds {t : Text} (h : ¬ Odd t) : (milliseconds t).Nonnegative := by
  rw [odd_iff] at h
  unfold milliseconds
  cases hread : read? t with
  | none => decide
  | some d =>
    refine nonnegative_toMilliseconds ?_
    by_contra hneg
    exact h ⟨d, hread, hneg⟩

end Delay

end CakeMonitor
