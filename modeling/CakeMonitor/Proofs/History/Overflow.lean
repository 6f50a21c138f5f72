import CakeMonitor.Proofs.History.Record
import CakeMonitor.Proofs.Number.Rounding
import CakeMonitor.Time

/-!
# When recording fails

With a readable clock and a positive interval there is one reason why recording a poll fails: a counter
that has grown by more than a double can hold since its interface was last seen.

* `growth_of_tooMuch`, `growth_of_not_tooMuch`: the growth of one counter.
* `Time.seconds_of_lt`, `Time.seconds_of_le`: the clocks that are readable.
* `Overflows`: a poll with a counter that has grown by too much.
* `Store.error_record_iff`: recording fails exactly on such polls.
-/

namespace CakeMonitor

open Binary64 (integerLimit)

/-! ## One counter -/

/-- The growth of a counter is more than a double can hold. -/
def TooMuch (current previous : Int) : Prop := (integerLimit : Int) ≤ current - previous

theorem growth_of_tooMuch {current previous : Int} (h : TooMuch current previous)
    (seconds : Binary64) : growth current previous seconds = .error .integerTooLarge := by
  unfold TooMuch at h
  have hlimit : (0 : Int) ≤ integerLimit := Int.natCast_nonneg _
  have hnot : ¬ current < previous := by omega
  have habs : integerLimit ≤ (current - previous).natAbs := by omega
  unfold growth
  rw [if_neg hnot, Binary64.ofInt_of_le habs]
  rfl

theorem growth_of_not_tooMuch {current previous : Int} (h : ¬ TooMuch current previous)
    {seconds : Binary64} (hs : seconds.isZero = false) :
    growth current previous seconds = .ok (rate current previous seconds) := by
  unfold TooMuch at h
  by_cases hlt : current < previous
  · unfold growth rate
    rw [if_pos hlt, if_pos hlt]
  · have habs : (current - previous).natAbs < integerLimit := by omega
    obtain ⟨x, hx⟩ : ∃ x, Binary64.ofInt (current - previous) = .ok x :=
      ⟨_, Binary64.ofInt_of_lt habs⟩
    have hgrowth : growth current previous seconds = .ok (x.div seconds) := by
      unfold growth
      rw [if_neg hlt, hx]
      show x.quotient seconds = _
      unfold Binary64.quotient
      rw [hs]
      rfl
    rw [hgrowth, ← growth_eq hgrowth]

/-! ## The time between two polls -/

/-- Neither of the two zeros is positive. -/
theorem le_zero_of_isZero {x : Binary64} (h : x.isZero = true) :
    x.le .zero = true ∧ Binary64.zero.lt x = false := by
  cases x with
  | nan => cases h
  | infinite negative => cases h
  | finite negative units =>
    obtain rfl : units = 0 := of_decide_eq_true h
    cases negative <;> exact ⟨rfl, rfl⟩

/-- With a positive interval there is always some time between two polls. -/
theorem isZero_elapsed {interval : Binary64} (h : Binary64.zero.lt interval = true)
    (now last : Binary64) : (Store.elapsed now last interval).isZero = false := by
  rw [← Bool.not_eq_true]
  intro hzero
  obtain ⟨hle, hlt⟩ := le_zero_of_isZero hzero
  unfold Store.elapsed at hle hlt
  simp only at hle hlt
  split_ifs at hle hlt with hmeasured
  · rw [h] at hlt
    cases hlt
  · exact hmeasured hle

/-! ## The clock -/

namespace Time

/-- A number of milliseconds that is not too large has seconds, and they have a whole part. -/
theorem seconds_of_lt {t : Timestamp} (h : t.natAbs < integerLimit) :
    ∃ clock time, seconds t = .ok clock ∧ clock.truncate = .ok time := by
  have hunits := (Binary64.roundUnits_integer_lt_iff t.natAbs).mpr h
  have hofInt := Binary64.ofInt_of_lt h
  generalize Binary64.roundUnits (Binary64.unitsOfOne * t.natAbs) 1 = units at hunits hofInt
  have hden : 0 < Binary64.unitsOfOne * 1000 := Nat.mul_pos (twoPow_pos 1074) (by decide)
  have hmiddle : twoPow 54 ≤ (twoPow 54 - 1) * 1000 := by decide
  have hround : Binary64.roundUnits (Binary64.unitsOfOne * units) (Binary64.unitsOfOne * 1000)
      < Binary64.unitsLimit := by
    rw [Binary64.unitsLimit_eq, Binary64.roundUnits_lt_iff hden, Nat.mul_left_comm]
    refine Nat.mul_lt_mul_of_pos_left (Nat.lt_of_lt_of_le hunits ?_) (twoPow_pos 1074)
    calc Binary64.unitsLimit = twoPow 54 * twoPow 2044 := by
          rw [Binary64.unitsLimit_eq, Binary64.twoPow_add]
      _ ≤ (twoPow 54 - 1) * 1000 * twoPow 2044 := Nat.mul_le_mul_right _ hmiddle
      _ = (twoPow 54 - 1) * twoPow 2044 * 1000 := Nat.mul_right_comm _ _ _
  have hne : Binary64.unitsOfOne * 1000 ≠ 0 := Nat.ne_of_gt hden
  have hclock : seconds t = .ok ((Binary64.finite (t < 0) units).div (.ofNat 1000)) := by
    unfold seconds
    rw [hofInt]
    rfl
  rw [hclock, Binary64.ofNat_thousand, Binary64.div, if_neg hne, Binary64.ofUnits_of_lt hround]
  exact ⟨_, _, rfl, rfl⟩

/-- A number of milliseconds that is too large has no seconds. -/
theorem seconds_of_le {t : Timestamp} (h : integerLimit ≤ t.natAbs) :
    seconds t = .error .integerTooLarge := by
  unfold seconds
  rw [Binary64.ofInt_of_le h]
  rfl

end Time

/-! ## A poll -/

/-- The counters whose growth is recorded. -/
structure Counters where
  txBytes : Int
  dropped : Int

/-- The counters of a snapshot. -/
def Snapshot.counters (x : Snapshot) : Counters where
  txBytes := x.txBytes
  dropped := x.totals.dropped

/-- The counters at the last poll. -/
def Track.counters (track : Track) : Counters where
  txBytes := track.txBytes
  dropped := track.dropped

/-- A counter of the snapshot has grown by too much. -/
def Snapshot.Outgrows (x : Snapshot) (last : Counters) : Prop :=
  TooMuch x.txBytes last.txBytes ∨ TooMuch x.totals.dropped last.dropped

/-- **A poll that overflows**: in one of its snapshots a counter has grown by too much since its
interface was last seen, before the poll or earlier in it. -/
def Overflows (seen : Text → Option Counters) : List Snapshot → Prop
  | [] => False
  | x :: xs =>
    (∃ last, seen x.interface = some last ∧ x.Outgrows last) ∨
      Overflows (Function.update seen x.interface (some x.counters)) xs

namespace Store

/-- The counters of each interface when it was last seen. -/
def seen (s : Store) (i : Text) : Option Counters := (s.track? i).map Track.counters

variable {s : Store} {now interval : Binary64}

theorem seen_put (s : Store) (i : Text) (track : Track) :
    (s.put i track).seen = Function.update s.seen i (some track.counters) := by
  funext j
  unfold seen
  rw [track?_put]
  by_cases h : i = j
  · subst h
    rw [if_pos rfl, Function.update_self]
    rfl
  · rw [if_neg h, Function.update_of_ne (Ne.symm h)]

theorem counters_advance (s : Store) (now interval : Binary64) (x : Snapshot) :
    (s.advance now interval x).counters = x.counters := by
  unfold advance
  split <;> rfl

/-- An interface that was seen before is recorded unless it outgrows its counters. -/
theorem error_update_iff {time : Int} (hnow : now.truncate = .ok time)
    (hinterval : Binary64.zero.lt interval = true) (x : Snapshot) (track : Track) :
    (s.update now interval x track).error = none ↔ ¬ x.Outgrows track.counters := by
  have hseconds := isZero_elapsed hinterval now track.time
  unfold Snapshot.Outgrows Track.counters update
  by_cases htx : TooMuch x.txBytes track.txBytes
  · simp [growth_of_tooMuch htx, htx]
  · have htx' := growth_of_not_tooMuch htx hseconds
    by_cases hdrops : TooMuch x.totals.dropped track.dropped
    · simp [htx', growth_of_tooMuch hdrops, hdrops]
    · have hdrops' := growth_of_not_tooMuch hdrops hseconds
      simp [htx', hdrops', hnow, htx, hdrops]

theorem error_observe_iff {time : Int} (hnow : now.truncate = .ok time)
    (hinterval : Binary64.zero.lt interval = true) (x : Snapshot) :
    (s.observe now interval x).error = none
      ↔ ¬ ∃ last, s.seen x.interface = some last ∧ x.Outgrows last := by
  unfold observe seen
  cases s.track? x.interface with
  | none => simp
  | some track => simp [error_update_iff hnow hinterval]

theorem error_observeAll_iff {time : Int} (hnow : now.truncate = .ok time)
    (hinterval : Binary64.zero.lt interval = true) (stats : List Snapshot) :
    (s.observeAll now interval stats).error = none ↔ ¬ Overflows s.seen stats := by
  induction stats generalizing s with
  | nil => exact iff_of_true rfl id
  | cons x xs ih =>
    have hobserve := error_observe_iff (s := s) hnow hinterval x
    unfold Overflows
    rw [not_or, ← hobserve]
    by_cases hx : (s.observe now interval x).error = none
    · have hnext := ih (s := s.put x.interface (s.advance now interval x))
      rw [seen_put, counters_advance] at hnext
      rw [observeAll, observe_eq hx, ← hnext]
      simp
    · rcases ho : s.observe now interval x with ⟨s₁, x₁, _ | e⟩
      · rw [ho] at hx
        exact absurd rfl hx
      · rw [observeAll, ho]
        simp

/-- **When recording fails**: if the poll overflows, and for no other reason. -/
theorem error_record_iff {time : Int} (hnow : now.truncate = .ok time)
    (hinterval : Binary64.zero.lt interval = true) (stats : List Snapshot) :
    (s.record now interval stats).error = none ↔ ¬ Overflows s.seen stats := by
  rw [error_record, error_observeAll_iff hnow hinterval]

end Store

end CakeMonitor
