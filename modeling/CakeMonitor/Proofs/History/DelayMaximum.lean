import CakeMonitor.History.Store
import CakeMonitor.Proofs.Number.OddDelay

/-!
# The largest delay of some tins

The largest of some delays is found by comparing each with the largest so far. NaN compares with nothing: at
the beginning nothing takes its place, and later it takes the place of nothing. So the result depends on the
order of the tins, unless none of their delays is NaN.

* `Binary64.maximum_mem`, `Binary64.le_maximum`: the maximum of numbers that are not NaN.
* `Tin.HasMaximum`: the largest delay is the same in any order, it is not negative, and no tin has a larger one.
* `Tin.hasMaximum_iff`: when that is so.
* `Tin.delays_usable_iff`: the tokens that are usable, and the tins of which the largest delay is.
-/

namespace CakeMonitor

/-! ## The maximum of numbers -/

namespace Binary64

theorem le_self {x : Binary64} (h : x ≠ .nan) : x.le x = true := by
  cases x with
  | nan => exact absurd rfl h
  | infinite s => cases s <;> rfl
  | finite s m => simp [le, lt]

theorem maximum_mem : ∀ (xs : List Binary64) (best : Binary64), maximum best xs ∈ best :: xs
  | [], _ => List.mem_cons_self
  | x :: xs, best => by
    rw [maximum]
    rcases List.mem_cons.mp (maximum_mem xs (if best.lt x then x else best)) with h | h
    · rw [h]
      split_ifs
      · exact List.mem_cons_of_mem _ List.mem_cons_self
      · exact List.mem_cons_self
    · exact List.mem_cons_of_mem _ (List.mem_cons_of_mem _ h)

/-- **Without NaN nothing is greater than the maximum.** -/
theorem le_maximum : ∀ (xs : List Binary64) (best : Binary64), best ≠ .nan → (∀ x ∈ xs, x ≠ .nan) →
    ∀ x ∈ best :: xs, x.le (maximum best xs) = true
  | [], best, hbest, _, x, hx => by
    obtain rfl := List.mem_singleton.mp hx
    exact le_self hbest
  | y :: ys, best, hbest, hys, x, hx => by
    obtain ⟨hy, hys⟩ := List.forall_mem_cons.mp hys
    rw [maximum]
    -- the larger of the two goes on, and whatever is at most one of them is at most that
    by_cases hlt : best.lt y = true
    · rw [if_pos hlt]
      have ih := le_maximum ys y hy hys
      rcases List.mem_cons.mp hx with rfl | hx
      · exact le_trans (le_of_lt hlt) (ih y List.mem_cons_self)
      · exact ih x hx
    · rw [if_neg hlt]
      have ih := le_maximum ys best hbest hys
      rcases List.mem_cons.mp hx with rfl | hx
      · exact ih x List.mem_cons_self
      · rcases List.mem_cons.mp hx with rfl | hx
        · exact le_trans (le_of_not_lt (le_self hbest) (le_self hy) hlt) (ih best List.mem_cons_self)
        · exact ih x (List.mem_cons_of_mem _ hx)

end Binary64

/-! ## The largest delay -/

namespace Tin

open Binary64 (Equals)

variable {l : TinLabel} {tins tins' : List Tin}

/-- A delay of the tin in milliseconds. -/
def delay (l : TinLabel) (t : Tin) : Binary64 := Delay.milliseconds (t.label l)

/-- **The largest delay is one**: the same number in any order, not negative, and at least the delay of every
tin. -/
structure HasMaximum (l : TinLabel) (tins : List Tin) : Prop where
  any_order : ∀ tins', tins'.Perm tins → Equals (maxDelay l tins') (maxDelay l tins)
  nonnegative : (maxDelay l tins).Nonnegative
  le : ∀ t ∈ tins, (t.delay l).le (maxDelay l tins) = true

theorem exists_maxDelay (hne : tins ≠ []) : ∃ t ∈ tins, maxDelay l tins = t.delay l := by
  obtain ⟨t, ts, rfl⟩ := List.exists_cons_of_ne_nil hne
  have hmem : maxDelay l (t :: ts) ∈ (t :: ts).map (delay l) := Binary64.maximum_mem _ _
  obtain ⟨u, hu, hmax⟩ := List.mem_map.mp hmem
  exact ⟨u, hu, hmax.symm⟩

theorem le_maxDelay (h : ∀ t ∈ tins, t.delay l ≠ .nan) : ∀ t ∈ tins, (t.delay l).le (maxDelay l tins) = true := by
  cases tins with
  | nil => exact List.forall_mem_nil _
  | cons t ts =>
    intro u hu
    obtain ⟨ht, hts⟩ := List.forall_mem_cons.mp h
    exact Binary64.le_maximum (ts.map (delay l)) (t.delay l) ht (List.forall_mem_map.mpr hts) _
      (List.mem_map_of_mem (f := delay l) hu)

/-- The largest delay of some tins is at most that of more. -/
theorem maxDelay_le (hne : tins' ≠ []) (h : ∀ t ∈ tins, t.delay l ≠ .nan) (hsub : tins' ⊆ tins) :
    (maxDelay l tins').le (maxDelay l tins) = true := by
  obtain ⟨t, ht, hmax⟩ := exists_maxDelay (l := l) hne
  rw [hmax]
  exact le_maxDelay h t (hsub ht)

theorem maxDelay_perm (hperm : tins'.Perm tins) (h : ∀ t ∈ tins, t.delay l ≠ .nan) :
    Equals (maxDelay l tins') (maxDelay l tins) := by
  by_cases hne : tins = []
  · subst hne
    rw [hperm.eq_nil]
    exact ⟨rfl, rfl⟩
  · have hne' : tins' ≠ [] := fun hnil => hne ((hnil ▸ hperm).symm.eq_nil)
    exact ⟨maxDelay_le hne' h hperm.subset,
      maxDelay_le hne (fun t ht => h t (hperm.mem_iff.mp ht)) hperm.symm.subset⟩

/-- **When the largest delay is one**: no delay is NaN, and among any tins one has a delay that is not
negative. -/
theorem hasMaximum_iff : HasMaximum l tins ↔
    (∀ t ∈ tins, t.delay l ≠ .nan) ∧ (tins = [] ∨ ∃ t ∈ tins, (t.delay l).Nonnegative) := by
  constructor
  · intro h
    refine ⟨fun t ht => (Binary64.le_iff_not_lt.mp (h.le t ht)).1, or_iff_not_imp_left.mpr fun hne => ?_⟩
    obtain ⟨t, ht, hmax⟩ := exists_maxDelay (l := l) hne
    exact ⟨t, ht, hmax ▸ h.nonnegative⟩
  · rintro ⟨hnumbers, hnonnegative⟩
    refine ⟨fun tins' hperm => maxDelay_perm hperm hnumbers, ?_, le_maxDelay hnumbers⟩
    rcases hnonnegative with rfl | ⟨t, ht, hdelay⟩
    · rfl
    · exact Binary64.le_trans hdelay (le_maxDelay hnumbers t ht)

/-- **Usable delays**: a token is a nonnegative number on both scales exactly when it is not odd; the largest
delay of some tins is one exactly when none is NaN and one at least is not negative, hence whenever no token of
theirs is odd. -/
theorem delays_usable_iff (l : TinLabel) (tins : List Tin) :
    (∀ t : Text, (Delay.microseconds t).Nonnegative ∧ (Delay.milliseconds t).Nonnegative ↔ ¬ Delay.Odd t) ∧
    (HasMaximum l tins ↔
      (∀ t ∈ tins, t.delay l ≠ .nan) ∧ (tins = [] ∨ ∃ t ∈ tins, (t.delay l).Nonnegative)) ∧
    ((∀ t ∈ tins, ¬ Delay.Odd (t.label l)) → HasMaximum l tins) := by
  refine ⟨fun t => ?_, hasMaximum_iff, fun h => hasMaximum_iff.mpr ?_⟩
  · constructor
    · rintro ⟨hmicroseconds, -⟩
      exact Delay.nonnegative_microseconds_iff.mp hmicroseconds
    · intro h
      exact ⟨Delay.nonnegative_microseconds_iff.mpr h, Delay.nonnegative_milliseconds h⟩
  · have husable : ∀ t ∈ tins, (t.delay l).Nonnegative := fun t ht => Delay.nonnegative_milliseconds (h t ht)
    refine ⟨fun t ht => (husable t ht).ne_nan, ?_⟩
    cases tins with
    | nil => exact .inl rfl
    | cons t ts => exact .inr ⟨t, List.mem_cons_self, husable t List.mem_cons_self⟩

/-- Tins of which no more is known than how long packets were delayed at most. -/
def peaks (delays : List Text) : List Tin := delays.map fun d => { labels := { pkDelay := d } }

/-- Tins of some delays, one of them no token of a delay. -/
theorem delays_usable_mixed :
    (∀ t ∈ peaks ["900us", "", "1.5ms", "soon"], ¬ Delay.Odd (t.label .pkDelay)) ∧
      HasMaximum .pkDelay (peaks ["900us", "", "1.5ms", "soon"]) := by
  have hplain : ∀ t ∈ peaks ["900us", "", "1.5ms", "soon"], ¬ Delay.Odd (t.label .pkDelay) := by
    intro t ht
    rw [← Delay.nonnegative_microseconds_iff]
    exact (by decide +kernel : ∀ t ∈ peaks ["900us", "", "1.5ms", "soon"],
      (Delay.microseconds (t.label .pkDelay)).Nonnegative) t ht
  exact ⟨hplain, (delays_usable_iff .pkDelay _).2.2 hplain⟩

/-- **Odd tokens are no time, and NaN hides another delay**: behind it five milliseconds are not seen, and
before it they are. -/
theorem oddDelays_not_usable :
    ¬ (Delay.microseconds "-5us").Nonnegative ∧ ¬ (Delay.milliseconds "-5us").Nonnegative ∧
      Delay.microseconds "nanms" = .nan ∧
      maxDelay .pkDelay (peaks ["nanms", "5ms"]) = .nan ∧
      maxDelay .pkDelay (peaks ["5ms", "nanms"]) = .ofNat 5 ∧
      ¬ HasMaximum .pkDelay (peaks ["nanms", "5ms"]) := by
  refine ⟨by decide +kernel, by decide +kernel, by decide +kernel, by decide +kernel, by decide +kernel, ?_⟩
  intro h
  exact absurd h.nonnegative (by decide +kernel)

end Tin

end CakeMonitor
