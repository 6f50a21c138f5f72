import CakeMonitor.Proofs.Fallible
import CakeMonitor.Proofs.Text.Words
import CakeMonitor.Quantity

/-!
# Numbers that cannot be read

A token that is not made of digits counts as zero. One that is made of digits is read as a number, and
that fails in two cases: a digit has no decimal value, or there are more digits than are read.

* `Spoiled`: a token of digits that is no number.
* `succeeds_digitsOrZero`: reading a token fails exactly when it is spoiled.
* `Counter.numeral`, `Size.numeral`: the part of a counter or a size that is read as a number;
  `Counter.succeeds_read` and `Size.succeeds_read` say when that works.
-/

namespace CakeMonitor

/-- A token made of digits, decimal or not. -/
def MadeOfDigits (token : Text) : Prop := token ≠ [] ∧ ∀ c ∈ token, c.isDigit = true

/-- A token of digits that spells no number, because one of them has no decimal value or because they
are too many. -/
def Spoiled (token : Text) : Prop :=
  MadeOfDigits token ∧ ((∃ c ∈ token, c.decimal? = none) ∨ digitLimit < token.length)

namespace Numeral

theorem length_leading_le : ∀ token : Text, (leading token).length ≤ token.length
  | [] => Nat.le_refl 0
  | c :: token => by
    rw [leading]
    cases c.decimal? with
    | none => exact Nat.zero_le _
    | some d => exact Nat.succ_le_succ (length_leading_le token)

/-- The decimal digits at the beginning are the whole token when no code point is without value. -/
theorem length_leading_eq_iff : ∀ {token : Text},
    (leading token).length = token.length ↔ ∀ c ∈ token, c.decimal? ≠ none
  | [] => by simp [leading]
  | c :: token => by
    rw [leading, List.forall_mem_cons]
    cases hc : c.decimal? with
    | none => simp
    | some d => simp [length_leading_eq_iff]

theorem succeeds_natural {token : Text} :
    Succeeds (natural token) ↔ (∀ c ∈ token, c.decimal? ≠ none) ∧ token.length ≤ digitLimit := by
  have hle := length_leading_le token
  rw [← length_leading_eq_iff, natural]
  split
  · next hlong =>
    refine iff_of_false (not_succeeds_error _) ?_
    rintro ⟨hlength, hlimit⟩
    omega
  · next hshort =>
    split
    · next hlength => exact iff_of_true (succeeds_ok _) ⟨hlength, by omega⟩
    · next hlength => exact iff_of_false (not_succeeds_error _) fun h => hlength h.1

end Numeral

/-- A token that is not made of digits counts as zero. -/
theorem digitsOrZero_of_not_digits {token : Text} (h : ¬ MadeOfDigits token) :
    digitsOrZero token = .ok 0 := by
  rw [digitsOrZero, if_neg]
  rintro ⟨hempty, hdigits⟩
  exact h ⟨hempty, List.all_eq_true.mp hdigits⟩

/-- **Reading a token fails when it is spoiled**, and not else. -/
theorem succeeds_digitsOrZero {token : Text} : Succeeds (digitsOrZero token) ↔ ¬ Spoiled token := by
  by_cases h : MadeOfDigits token
  · have hdigits : token.all CodePoint.isDigit = true := List.all_eq_true.mpr h.2
    rw [digitsOrZero, if_pos ⟨h.1, hdigits⟩, Numeral.succeeds_natural, Spoiled, and_iff_right h]
    simp only [not_or, not_exists, not_and, Nat.not_lt, ne_eq]
  · rw [digitsOrZero_of_not_digits h]
    exact iff_of_true (succeeds_ok 0) fun hspoiled => h hspoiled.1

/-! ## Plain texts -/

/-- A text of ASCII that is no longer than the longest number. -/
structure Text.Plain (t : Text) : Prop where
  ascii : ∀ c ∈ t, c.val < 0x80
  short : t.length ≤ digitLimit

instance (t : Text) : Decidable t.Plain :=
  decidable_of_iff ((∀ c ∈ t, c.val < 0x80) ∧ t.length ≤ digitLimit) ⟨fun h => ⟨h.1, h.2⟩, fun h => ⟨h.1, h.2⟩⟩

/-- No digit of ASCII is without value. -/
theorem CodePoint.decimal?_ne_none {c : CodePoint} (hascii : c.val < 0x80) (hdigit : c.isDigit = true) :
    c.decimal? ≠ none := by
  have hsymbols : ∀ r ∈ digitSymbols, 0x80 ≤ r.1 := by decide
  intro hnone
  unfold isDigit isIn at hdigit
  rw [hnone] at hdigit
  obtain ⟨r, hr, hc⟩ := List.any_eq_true.mp hdigit
  have hle := hsymbols r hr
  simp only [Bool.and_eq_true, decide_eq_true_eq] at hc
  omega

theorem Text.trimEndBy_sublist (p : CodePoint → Bool) (t : Text) : (t.trimEndBy p).Sublist t := by
  have hdrop := (List.dropWhile_sublist p (l := t.reverse)).reverse
  rwa [List.reverse_reverse] at hdrop

theorem Text.trim_sublist (t : Text) : t.trim.Sublist t :=
  (Text.trimEndBy_sublist _ _).trans (List.dropWhile_sublist _)

/-! ## Counters -/

namespace Counter

/-- The part of a counter that is read as a number. -/
def numeral (token : Text) : Text := token.trim.trimEndBy (· ∈ unitLetters)

/-- The counter can be read, if only as zero. -/
def Legible (token : Text) : Prop := ¬ Spoiled (numeral token)

theorem succeeds_read {token : Text} : Succeeds (read token) ↔ Legible token :=
  succeeds_digitsOrZero

/-- A malformed counter counts as zero. -/
theorem read_of_not_digits {token : Text} (h : ¬ MadeOfDigits (numeral token)) :
    read token = .ok 0 :=
  digitsOrZero_of_not_digits h

theorem numeral_sublist (t : Text) : (numeral t).Sublist t :=
  (Text.trimEndBy_sublist _ _).trans (Text.trim_sublist t)

theorem legible_of_plain {t : Text} (h : t.Plain) : Legible t := by
  have hsublist := numeral_sublist t
  rintro ⟨hdigits, ⟨c, hc, hnone⟩ | hlong⟩
  · exact CodePoint.decimal?_ne_none (h.ascii c (hsublist.subset hc)) (hdigits.2 c hc) hnone
  · have hlength := hsublist.length_le
    have hshort := h.short
    omega

end Counter

/-! ## Sizes -/

namespace Size

/-- What stands in front of the first unit that a text ends in, and the multiple of that unit. -/
def splitIn : List (Text × Nat) → Text → Text × Nat
  | [], t => (t, 1)
  | (unit, multiple) :: us, t =>
    match Text.beforeSuffix? unit t with
    | some number => (number, multiple)
    | none => splitIn us t

theorem readIn_eq (t : Text) : ∀ us : List (Text × Nat),
    readIn us t = (digitsOrZero (splitIn us t).1).map (· * (splitIn us t).2)
  | [] => by
    show digitsOrZero t = (digitsOrZero t).map (· * 1)
    cases digitsOrZero t with
    | error e => rfl
    | ok n => exact congrArg Except.ok (Nat.mul_one n).symm
  | (unit, multiple) :: us => by
    unfold readIn splitIn
    cases Text.beforeSuffix? unit t with
    | some number => rfl
    | none => exact readIn_eq t us

theorem splitIn_cons_append (t unit : Text) (multiple : Nat) (us : List (Text × Nat)) :
    splitIn ((unit, multiple) :: us) (t ++ unit) = (t, multiple) := by
  rw [splitIn, Text.beforeSuffix?_eq_some_iff.mpr rfl]

theorem splitIn_cons_of_not_mem {c : CodePoint} {unit t : Text} (hc : c ∈ unit) (h : c ∉ t)
    (multiple : Nat) (us : List (Text × Nat)) : splitIn ((unit, multiple) :: us) t = splitIn us t := by
  rw [splitIn, Text.beforeSuffix?_of_not_mem hc h]

/-- **Digits are found in front of every unit**, and in front of none. -/
theorem splitIn_append {ds unit : Text} {multiple : Nat} (hds : ∀ d ∈ ds, d.isDigit = true)
    (h : (unit, multiple) ∈ units ++ [([], 1)]) : splitIn units (ds ++ unit) = (ds, multiple) := by
  -- a unit that is tried earlier has a letter that occurs neither in the digits nor in the unit behind them
  have habsent {c : CodePoint} {u : Text} (hc : c.isDigit = false) (hu : c ∉ u) : c ∉ ds ++ u :=
    List.not_mem_append (fun hmem => absurd (hds c hmem) (by rw [hc]; decide)) hu
  have hG {t : Text} (ht : CodePoint.ofChar 'G' ∉ t) : splitIn units t = splitIn (units.drop 1) t :=
    splitIn_cons_of_not_mem (by decide) ht _ _
  have hM {t : Text} (ht : CodePoint.ofChar 'M' ∉ t) : splitIn (units.drop 1) t = splitIn (units.drop 2) t :=
    splitIn_cons_of_not_mem (by decide) ht _ _
  have hK {t : Text} (ht : CodePoint.ofChar 'K' ∉ t) : splitIn (units.drop 2) t = splitIn (units.drop 3) t :=
    splitIn_cons_of_not_mem (by decide) ht _ _
  have hb {t : Text} (ht : CodePoint.ofChar 'b' ∉ t) : splitIn (units.drop 3) t = (t, 1) :=
    splitIn_cons_of_not_mem (by decide) ht _ _
  simp only [units, List.cons_append, List.nil_append, List.mem_cons, List.not_mem_nil, or_false,
    Prod.mk.injEq] at h
  rcases h with ⟨rfl, rfl⟩ | ⟨rfl, rfl⟩ | ⟨rfl, rfl⟩ | ⟨rfl, rfl⟩ | ⟨rfl, rfl⟩
  · exact splitIn_cons_append ds "Gb" _ _
  · rw [hG (habsent (by decide) (by decide))]
    exact splitIn_cons_append ds "Mb" _ _
  · rw [hG (habsent (by decide) (by decide)), hM (habsent (by decide) (by decide))]
    exact splitIn_cons_append ds "Kb" _ _
  · rw [hG (habsent (by decide) (by decide)), hM (habsent (by decide) (by decide)),
      hK (habsent (by decide) (by decide))]
    exact splitIn_cons_append ds "b" _ _
  · rw [hG (habsent (by decide) (by decide)), hM (habsent (by decide) (by decide)),
      hK (habsent (by decide) (by decide)), hb (habsent (by decide) (by decide)), List.append_nil]

/-- The part of a size that is read as a number. -/
def numeral (t : Text) : Text := (splitIn units t.trim).1

/-- The size can be read, if only as zero. -/
def Legible (t : Text) : Prop := ¬ Spoiled (numeral t)

theorem succeeds_read {t : Text} : Succeeds (read t) ↔ Legible t := by
  rw [read, readIn_eq, succeeds_map, succeeds_digitsOrZero]
  rfl

/-- A malformed size counts as zero. -/
theorem read_of_not_digits {t : Text} (h : ¬ MadeOfDigits (numeral t)) :
    read t = .ok 0 := by
  have hzero : digitsOrZero (splitIn units t.trim).1 = .ok 0 := digitsOrZero_of_not_digits h
  rw [read, readIn_eq, hzero]
  exact congrArg Except.ok (Nat.zero_mul _)

/-- The bytes of a size, zero for one that cannot be read. -/
def bytes (t : Text) : Nat := (read t).toOption.getD 0

theorem read_of_legible {t : Text} (h : Legible t) : read t = .ok (bytes t) := by
  obtain ⟨n, hn⟩ := succeeds_read.mpr h
  rw [bytes, hn]
  rfl

end Size

end CakeMonitor
