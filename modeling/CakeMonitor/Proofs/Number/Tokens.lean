import CakeMonitor.Proofs.MultiQueue.Nested

/-!
# The tokens of counters and sizes

A counter is spelled by decimal digits with any number of unit letters behind them, and a size by decimal digits
with one unit or none. Every other token counts as zero, so nothing but what a token spells is ever read off it.
Sizes are printed as such tokens, so the sum of some sizes is read back from its print.

* `Counter.Spells`, `Size.Spells`: the tokens of counters and of sizes, `Counter.spells_iff` and
  `Size.spells_iff` in terms of the part that is read as a number.
* `Counter.read_of_plain`, `Size.read_of_plain`: what is read off a token that spells a number, and off one
  that does not.
* `Size.tokens_accepted`: both, and the sizes that are printed.
-/

namespace CakeMonitor

/-! ## Digits -/

namespace Numeral

/-- ASCII has ten digits. -/
theorem ascii_of_isDigit {c : CodePoint} (hascii : c.val < 0x80) (h : c.isDigit = true) :
    0x30 ≤ c.val ∧ c.val ≤ 0x39 := by
  have hzero : ∀ z ∈ CodePoint.scriptZeros, z < 0x80 → z = 0x30 := by decide
  obtain ⟨d, hd⟩ := Option.ne_none_iff_exists'.mp (CodePoint.decimal?_ne_none hascii h)
  obtain ⟨z, hz, -⟩ := Option.map_eq_some_iff.mp hd
  have hrange := List.find?_some hz
  simp only [Bool.and_eq_true, decide_eq_true_eq] at hrange
  obtain rfl := hzero z (List.mem_of_find?_eq_some hz) (by omega)
  exact hrange

theorem exists_spells {ds : Text} (hascii : ∀ c ∈ ds, c.val < 0x80) (h : MadeOfDigits ds) :
    ∃ n, Spells ds n :=
  ⟨_, h.1, fun c hc => ascii_of_isDigit (hascii c hc) (h.2 c hc), rfl⟩

end Numeral

/-! ## Counters -/

namespace Counter

/-- A token spells a counter: digits, and any number of unit letters behind them. -/
def Spells (token : Text) (n : Nat) : Prop :=
  ∃ ds letters : Text, token.trim = ds ++ letters ∧ Numeral.Spells ds n ∧
    ∀ c ∈ letters, c ∈ ("bBkKmMgGpP" : Text)

theorem spells_iff {token : Text} {n : Nat} : Spells token n ↔ Numeral.Spells (numeral token) n := by
  constructor
  · rintro ⟨ds, letters, hsplit, hds, hletters⟩
    have hlast : ∀ c ∈ ds.getLast?, decide (c ∈ unitLetters) = false := fun c hc =>
      hds.forall_mem (p := fun c => decide (c ∈ unitLetters) = false) unitLetters_ascii_digit c
        (List.mem_of_getLast? hc)
    have htrim : (ds ++ letters).trimEndBy (fun c => decide (c ∈ unitLetters)) = ds :=
      Text.trimEndBy_append (fun c hc => decide_eq_true (hletters c hc)) hlast
    rwa [numeral, hsplit, htrim]
  · intro h
    obtain ⟨letters, hsplit, hletters⟩ :=
      Text.exists_trimEndBy_append (fun c => decide (c ∈ unitLetters)) token.trim
    exact ⟨numeral token, letters, hsplit.symm, h, fun c hc => of_decide_eq_true (hletters c hc)⟩

/-- **A counter is read as what it spells, and any other token as zero.** -/
theorem read_of_plain {token : Text} (h : token.Plain) :
    (∀ n, Spells token n → read token = .ok n) ∧ ((∀ n, ¬ Spells token n) → read token = .ok 0) := by
  simp only [spells_iff]
  have hsublist := numeral_sublist token
  refine ⟨fun n hspells => hspells.read (hsublist.length_le.trans h.short), fun hnone => ?_⟩
  refine read_of_not_digits fun hdigits => ?_
  obtain ⟨n, hn⟩ := Numeral.exists_spells (fun c hc => h.ascii c (hsublist.subset hc)) hdigits
  exact hnone n hn

end Counter

/-! ## Sizes -/

namespace Size

/-- A token spells a size: digits, and one unit behind them or none. -/
def Spells (t : Text) (n : Nat) : Prop :=
  ∃ (ds unit : Text) (k multiple : Nat), t.trim = ds ++ unit ∧ Numeral.Spells ds k ∧
    (unit, multiple) ∈ ([("Gb", 2 ^ 30), ("Mb", 2 ^ 20), ("Kb", 2 ^ 10), ("b", 1), ("", 1)] :
      List (Text × Nat)) ∧ n = k * multiple

/-- The multiple of the unit that a size ends in. -/
def multiple (t : Text) : Nat := (splitIn units t.trim).2

theorem exists_splitIn (t : Text) : ∀ us : List (Text × Nat),
    ∃ unit, t = (splitIn us t).1 ++ unit ∧ (unit, (splitIn us t).2) ∈ us ++ [([], 1)]
  | [] => ⟨[], (List.append_nil t).symm, List.mem_singleton_self _⟩
  | (unit, multiple) :: us => by
    rw [splitIn]
    cases hsuffix : Text.beforeSuffix? unit t with
    | some number => exact ⟨unit, Text.beforeSuffix?_eq_some_iff.mp hsuffix, List.mem_cons_self⟩
    | none =>
      obtain ⟨unit', hsplit, hmem⟩ := exists_splitIn t us
      exact ⟨unit', hsplit, List.mem_cons_of_mem _ hmem⟩

theorem spells_iff {t : Text} {n : Nat} :
    Spells t n ↔ ∃ k, Numeral.Spells (numeral t) k ∧ n = k * multiple t := by
  constructor
  · rintro ⟨ds, unit, k, m, hsplit, hds, hunit, rfl⟩
    have hfound : splitIn units t.trim = (ds, m) := by
      rw [hsplit]
      exact splitIn_append (hds.forall_mem isDigit_ascii_digit) hunit
    unfold numeral multiple
    rw [hfound]
    exact ⟨k, hds, rfl⟩
  · rintro ⟨k, hk, rfl⟩
    obtain ⟨unit, hsplit, hunit⟩ := exists_splitIn t.trim units
    exact ⟨numeral t, unit, k, multiple t, hsplit, hk, hunit, rfl⟩

theorem numeral_sublist (t : Text) : (numeral t).Sublist t := by
  obtain ⟨unit, hsplit, -⟩ := exists_splitIn t.trim units
  have hprefix : (numeral t).Sublist t.trim := by
    rw [hsplit]
    exact List.sublist_append_left _ _
  exact hprefix.trans (Text.trim_sublist t)

theorem read_eq (t : Text) : read t = (digitsOrZero (numeral t)).map (· * multiple t) := readIn_eq _ _

/-- **A size is read as what it spells, and any other token as zero.** -/
theorem read_of_plain {t : Text} (h : t.Plain) :
    (∀ n, Spells t n → read t = .ok n) ∧ ((∀ n, ¬ Spells t n) → read t = .ok 0) := by
  simp only [spells_iff]
  have hsublist := numeral_sublist t
  constructor
  · rintro n ⟨k, hk, rfl⟩
    rw [read_eq, hk.read (hsublist.length_le.trans h.short)]
    rfl
  · intro hnone
    refine read_of_not_digits fun hdigits => ?_
    obtain ⟨k, hk⟩ := Numeral.exists_spells (fun c hc => h.ascii c (hsublist.subset hc)) hdigits
    exact hnone _ ⟨k, hk, rfl⟩

open MultiQueue (addSizes)

theorem readable_iff {n : Nat} : Readable n ↔ n < 10 ^ digitLimit :=
  Nat.length_toDigits_le_iff (by decide) (by decide)

/-- **What counters and sizes are read off.** A token that spells a number is read as that number, and every
other token as zero. A size that is printed is read back, and so is the printed sum of some sizes. -/
theorem tokens_accepted :
    (∀ token : Text, token.Plain → (∀ n, Counter.Spells token n → Counter.read token = .ok n) ∧
      ((∀ n, ¬ Counter.Spells token n) → Counter.read token = .ok 0)) ∧
    (∀ t : Text, t.Plain → (∀ n, Spells t n → read t = .ok n) ∧
      ((∀ n, ¬ Spells t n) → read t = .ok 0)) ∧
    (∀ n : Nat, n < 10 ^ digitLimit → ∃ t, print n = .ok t ∧ read t = .ok n) ∧
    ∀ sizes bytes, sizes.mapM read = .ok bytes → bytes.sum < 10 ^ digitLimit →
      ∃ t, addSizes sizes = .ok t ∧ read t = .ok bytes.sum := by
  refine ⟨fun _ => Counter.read_of_plain, fun _ => read_of_plain, fun n hn => ?_,
    fun sizes bytes hbytes hsum => ?_⟩
  · have hreadable := readable_iff.mpr hn
    exact ⟨_, print_ofNat hreadable, read_print hreadable⟩
  · have hreadable := readable_iff.mpr hsum
    refine ⟨_, ?_, read_print hreadable⟩
    unfold addSizes
    rw [hbytes, ← print_ofNat hreadable, ← sumOf_ofNat]
    rfl

/-- A counter with zeros in front and two letters behind, sizes with and without a unit, tokens that are neither,
and a sum of more than 64 bits. -/
theorem tokens_accepted_mixed :
    (Counter.Spells " 007bK\t" 7 ∧ Counter.read " 007bK\t" = .ok 7) ∧
    ((∀ n, ¬ Counter.Spells "12x" n) ∧ Counter.read "12x" = .ok 0) ∧
    (Spells "032Mb" 33554432 ∧ read "032Mb" = .ok 33554432) ∧
    ((∀ n, ¬ Spells "12Kbb" n) ∧ read "12Kbb" = .ok 0) ∧
    (∃ t, print (2 ^ 70 : Nat) = .ok t ∧ read t = .ok (2 ^ 70)) ∧
    ∃ t, addSizes ["17179869184Gb", "12Kbb", "5"] = .ok t ∧ read t = .ok 18446744073709551621 := by
  obtain ⟨hcounter, hsize, hprint, hsum⟩ := tokens_accepted
  have hseven : Counter.Spells " 007bK\t" 7 :=
    ⟨"007", "bK", by decide, ⟨by decide, by decide, by decide⟩, by decide⟩
  have hletter (n : Nat) : ¬ Counter.Spells "12x" n := fun h =>
    absurd ((Counter.spells_iff.mp h).digits (CodePoint.ofChar 'x') (by decide)) (by decide)
  have hmega : Spells "032Mb" 33554432 :=
    ⟨"032", "Mb", 32, 2 ^ 20, by decide, ⟨by decide, by decide, by decide⟩, by decide, by decide⟩
  have htwice (n : Nat) : ¬ Spells "12Kbb" n := fun h => by
    obtain ⟨k, hk, -⟩ := spells_iff.mp h
    exact absurd (hk.digits (CodePoint.ofChar 'K') (by decide)) (by decide)
  have hsmall {n : Nat} (h : n < 10 ^ 22) : n < 10 ^ digitLimit :=
    Nat.lt_of_lt_of_le h (Nat.pow_le_pow_right (by decide) (by decide))
  have hbytes : (["17179869184Gb", "12Kbb", "5"] : List Text).mapM read = .ok [18446744073709551616, 0, 5] := by
    decide +kernel
  refine ⟨⟨hseven, (hcounter _ (by decide)).1 7 hseven⟩, ⟨hletter, (hcounter _ (by decide)).2 hletter⟩,
    ⟨hmega, (hsize _ (by decide)).1 _ hmega⟩, ⟨htwice, (hsize _ (by decide)).2 htwice⟩,
    hprint _ (hsmall (by decide)), hsum _ _ hbytes (hsmall (by decide))⟩

end Size

end CakeMonitor
