import CakeMonitor.Proofs.Text.Words
import CakeMonitor.Quantity
import Mathlib.Data.Nat.Digits.Defs

/-!
# Digits and the numbers that they make up

Decimal digits make up a number, with zeros in front of it or without, and are read as that number unless there
are more than `digitLimit` of them. A number is printed as such digits, so it is read back, and it is a word.

* `Numeral.Spells`: digits of ASCII with the number that they make up.
* `Numeral.Spells.read`: they are read as that number.
* `Numeral.spells_ofNat`: a printed number is spelled by its digits.
* `Counter.read_ofNat`: so a counter is read back, with unit letters behind the digits or without.
-/

namespace CakeMonitor

/-- A natural number of at most `digitLimit` decimal digits. -/
def Readable (n : Nat) : Prop := (Nat.toDigits 10 n).length ≤ digitLimit

instance (n : Nat) : Decidable (Readable n) := inferInstanceAs (Decidable (_ ≤ digitLimit))

theorem isBlank_ascii_digit : ∀ d < 10, (CodePoint.ofNat (0x30 + d)).isBlank = false := by decide

theorem isDigit_ascii_digit : ∀ d < 10, (CodePoint.ofNat (0x30 + d)).isDigit = true := by decide

namespace Numeral

/-! ## Digits -/

/-- Decimal digits of ASCII that make up a number, the most significant first. -/
structure Spells (ds : Text) (n : Nat) : Prop where
  ne_nil : ds ≠ []
  digits : ∀ c ∈ ds, 0x30 ≤ c.val ∧ c.val ≤ 0x39
  value : n = Nat.ofDigits 10 (ds.reverse.map fun c => c.val - 0x30)

theorem exists_ascii_digit {c : CodePoint} (h : 0x30 ≤ c.val ∧ c.val ≤ 0x39) :
    ∃ d < 10, c = CodePoint.ofNat (0x30 + d) := by
  have hval : 0x30 + (c.val - 0x30) = c.val := by omega
  refine ⟨c.val - 0x30, by omega, ?_⟩
  simp [CodePoint.ofNat, hval, c.isLt]

/-- What holds of the ten digits of ASCII holds of the digits of a number. -/
theorem Spells.forall_mem {p : CodePoint → Prop} {ds : Text} {n : Nat} (h : Spells ds n)
    (hp : ∀ d < 10, p (CodePoint.ofNat (0x30 + d))) : ∀ c ∈ ds, p c := by
  intro c hc
  obtain ⟨d, hd, rfl⟩ := exists_ascii_digit (h.digits c hc)
  exact hp d hd

theorem decimal?_of_ascii {c : CodePoint} (h : 0x30 ≤ c.val ∧ c.val ≤ 0x39) :
    c.decimal? = some (c.val - 0x30) := by
  obtain ⟨d, hd, rfl⟩ := exists_ascii_digit h
  have hlt : 0x30 + d < 0x110000 := by omega
  rw [CodePoint.decimal?_ascii d hd, CodePoint.val_ofNat hlt, Nat.add_sub_cancel_left]

theorem leading_of_ascii : ∀ {ds : Text}, (∀ c ∈ ds, 0x30 ≤ c.val ∧ c.val ≤ 0x39) →
    leading ds = ds.map fun c => c.val - 0x30
  | [], _ => rfl
  | c :: ds, h => by
    obtain ⟨hc, hds⟩ := List.forall_mem_cons.mp h
    rw [leading, decimal?_of_ascii hc, List.map_cons, leading_of_ascii hds]

/-- The least significant digit, which stands last, is added last. -/
theorem ofDigits_eq (ds : List Nat) : ofDigits ds = Nat.ofDigits 10 ds.reverse := by
  rw [Nat.ofDigits_eq_foldr, List.foldr_reverse, ofDigits]
  congr 1
  funext n d
  exact Nat.add_comm _ _

/-- **Digits that are not too many are read as the number that they make up.** -/
theorem Spells.read {ds : Text} {n : Nat} (h : Spells ds n) (hshort : ds.length ≤ digitLimit) :
    digitsOrZero ds = .ok n := by
  have hdigits : ds.all CodePoint.isDigit = true :=
    List.all_eq_true.mpr (h.forall_mem isDigit_ascii_digit)
  have hleading := leading_of_ascii h.digits
  have hlength : (leading ds).length = ds.length := by rw [hleading, List.length_map]
  have hvalue : ofDigits (leading ds) = n := by
    rw [ofDigits_eq, hleading, ← List.map_reverse, h.value]
  rw [digitsOrZero, if_pos ⟨h.ne_nil, hdigits⟩, natural, hlength, if_neg (Nat.not_lt.mpr hshort),
    if_pos rfl, hvalue]

/-! ## Printed numbers -/

theorem digit_bounds {c : Char} (h : c.isDigit = true) : 48 ≤ c.toNat ∧ c.toNat ≤ 57 := by
  simp only [Char.isDigit, ge_iff_le, Bool.and_eq_true, decide_eq_true_eq,
    UInt32.le_iff_toNat_le] at h
  exact h

theorem ofDigits_map (cs : List Char) :
    ofDigits (cs.map fun c => c.toNat - 48) = Nat.ofDigitChars 10 cs 0 := by
  rw [ofDigits, List.foldl_map]
  rfl

/-- **A printed number is spelled by its digits.** -/
theorem spells_ofNat (n : Nat) : Spells (Text.ofNat n) n where
  ne_nil := by simp [Text.ofNat, Nat.toDigits_ne_nil]
  digits := by
    intro c hc
    obtain ⟨a, ha, rfl⟩ := List.mem_map.mp hc
    exact digit_bounds (Nat.isDigit_of_mem_toDigits (by decide) (by decide) ha)
  value := by
    have hvalues : (Text.ofNat n).map (fun c => c.val - 0x30) = (Nat.toDigits 10 n).map fun c => c.toNat - 48 :=
      List.map_map
    rw [List.map_reverse, ← ofDigits_eq, hvalues, ofDigits_map, Nat.ofDigitChars_ten_toDigits]

end Numeral

/-- What holds of the ten digits of ASCII holds of all digits of a printed number. -/
theorem forall_mem_ofNat {p : CodePoint → Prop} (hp : ∀ d < 10, p (CodePoint.ofNat (0x30 + d)))
    (n : Nat) : ∀ c ∈ Text.ofNat n, p c :=
  (Numeral.spells_ofNat n).forall_mem hp

theorem ofNat_ne_nil (n : Nat) : Text.ofNat n ≠ [] := (Numeral.spells_ofNat n).ne_nil

/-- A printed number is one word. -/
theorem isWord_ofNat (n : Nat) : Text.IsWord (Text.ofNat n) :=
  ⟨ofNat_ne_nil n, forall_mem_ofNat isBlank_ascii_digit n⟩

theorem digitsOrZero_ofNat {n : Nat} (h : Readable n) : digitsOrZero (Text.ofNat n) = .ok n :=
  (Numeral.spells_ofNat n).read ((List.length_map _).trans_le h)

/-! ## Counters -/

namespace Counter

theorem unitLetters_ascii_digit :
    ∀ d < 10, decide (CodePoint.ofNat (0x30 + d) ∈ unitLetters) = false := by decide

/-- **A printed counter is read back**, with unit letters behind it or without. -/
theorem read_ofNat_append {n : Nat} (h : Readable n) {u : Text}
    (hu : ∀ c ∈ u, c ∈ unitLetters) (hs : ∀ c ∈ u, c.isBlank = false) :
    read (Text.ofNat n ++ u) = .ok n := by
  have hw : Text.IsWord (Text.ofNat n ++ u) :=
    ⟨by simp [ofNat_ne_nil], List.forall_mem_append.mpr ⟨(isWord_ofNat n).solid, hs⟩⟩
  have hlast : ∀ c ∈ (Text.ofNat n).getLast?, decide (c ∈ unitLetters) = false := fun c hc =>
    forall_mem_ofNat (p := fun c => decide (c ∈ unitLetters) = false) unitLetters_ascii_digit n c
      (List.mem_of_getLast? hc)
  have htrim := Text.trimEndBy_append (fun c hc => decide_eq_true (hu c hc)) hlast
  rw [read, hw.trim_eq, htrim, digitsOrZero_ofNat h]

theorem read_ofNat {n : Nat} (h : Readable n) : read (Text.ofNat n) = .ok n := by
  simpa using read_ofNat_append h (u := []) (by simp) (by simp)

end Counter

end CakeMonitor
