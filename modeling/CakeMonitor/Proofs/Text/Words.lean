import CakeMonitor.Text.Split
import Mathlib.Data.List.DropRight
import Mathlib.Data.List.Induction
import Mathlib.Data.List.TakeWhile

/-!
# Words, lines and labels of a text

What the cuts of `Text.Split` do on texts that are put together from known parts.

* `Text.words_append_blank`: a blank separates words, and nothing else about the text matters.
* `Text.words_spread`, `Text.trim_spread`: a line laid out from words gives its words back, and
  trimming removes the blanks around them only.
* `Text.lines_unlines`: lines are read back as they were written.
* `Text.trim_append_blanks`, `Text.includes_concat`: what stands at the end of a line and does not matter.
* `Text.words_append_solid`, `Text.words_solid_append`: what stands next to a blank belongs to the last
  word in front of it or to the first one behind it.
-/

namespace CakeMonitor.Text

/-- A text that is one word: something, and no blank in it. -/
structure IsWord (t : Text) : Prop where
  ne_nil : t ≠ []
  solid : ∀ c ∈ t, c.isBlank = false

instance (t : Text) : Decidable (IsWord t) :=
  decidable_of_iff (t ≠ [] ∧ ∀ c ∈ t, c.isBlank = false) ⟨fun h => ⟨h.1, h.2⟩, fun h => ⟨h.1, h.2⟩⟩

/-- The blank that all layouts use. -/
abbrev space : CodePoint := ' '

/-- What ends a handle. -/
abbrev colon : CodePoint := ':'

/-- The end of a line. -/
abbrev newline : CodePoint := '\n'

@[simp] theorem isBlank_space : space.isBlank = true := by decide

/-! ## Words -/

theorem wordsFrom_append_blank {c : CodePoint} (hc : c.isBlank = true) (y : Text) :
    ∀ x w : Text, wordsFrom w (x ++ c :: y) = wordsFrom w x ++ wordsFrom [] y
  | [], w => by
    simp only [List.nil_append, wordsFrom, hc, if_true]
    by_cases hw : w = [] <;> simp [hw]
  | d :: x, w => by
    have ih := wordsFrom_append_blank hc y x
    simp only [List.cons_append, wordsFrom]
    split_ifs <;> simp [ih]

/-- **Words end at a blank.** -/
theorem words_append_blank {c : CodePoint} (hc : c.isBlank = true) (x y : Text) :
    words (x ++ c :: y) = words x ++ words y :=
  wordsFrom_append_blank hc y x []

@[simp] theorem words_nil : words [] = [] := rfl

theorem words_cons_blank {c : CodePoint} (hc : c.isBlank = true) (t : Text) :
    words (c :: t) = words t := by
  simpa using words_append_blank hc [] t

theorem words_blanks_append {b : Text} (hb : ∀ c ∈ b, c.isBlank = true) (t : Text) :
    words (b ++ t) = words t := by
  induction b with
  | nil => rfl
  | cons c b ih =>
    rw [List.cons_append, words_cons_blank (hb c List.mem_cons_self)]
    exact ih fun d hd => hb d (List.mem_cons_of_mem c hd)

theorem words_append_blanks {b : Text} (hb : ∀ c ∈ b, c.isBlank = true) (t : Text) :
    words (t ++ b) = words t := by
  cases b with
  | nil => rw [List.append_nil]
  | cons c b =>
    rw [words_append_blank (hb c List.mem_cons_self)]
    have := words_blanks_append (fun d hd => hb d (List.mem_cons_of_mem c hd)) []
    rw [List.append_nil] at this
    rw [this, words_nil, List.append_nil]

theorem wordsFrom_solid :
    ∀ {t : Text}, (∀ c ∈ t, c.isBlank = false) → ∀ w : Text, w ≠ [] ∨ t ≠ [] →
      wordsFrom w t = [w.reverse ++ t]
  | [], _, w, h => by
    have hw : w ≠ [] := by simpa using h
    simp [wordsFrom, hw]
  | c :: t, hs, w, _ => by
    rw [wordsFrom, hs c List.mem_cons_self, if_neg Bool.false_ne_true,
      wordsFrom_solid (fun d hd => hs d (List.mem_cons_of_mem c hd)) (c :: w) (by simp)]
    simp

theorem IsWord.words_eq {t : Text} (h : IsWord t) : words t = [t] :=
  wordsFrom_solid h.solid [] (Or.inr h.ne_nil)

theorem wordsFrom_append_solid {x : Text} (hx : ∀ c ∈ x, c.isBlank = false) (b w : Text) :
    wordsFrom w (x ++ b) = wordsFrom (x.reverse ++ w) b := by
  induction x generalizing w with
  | nil => rfl
  | cons c x ih =>
    rw [List.cons_append, wordsFrom, hx c List.mem_cons_self, if_neg Bool.false_ne_true,
      ih fun d hd => hx d (List.mem_cons_of_mem c hd)]
    simp

theorem wordsFrom_begun : ∀ (b : Text) {w : Text}, w ≠ [] →
    ∃ z rest, wordsFrom w b = (w.reverse ++ z) :: rest
  | [], w, hw => ⟨[], [], by simp [wordsFrom, hw]⟩
  | c :: b, w, hw => by
    by_cases hc : c.isBlank = true
    · exact ⟨[], wordsFrom [] b, by simp [wordsFrom, hc, hw]⟩
    · obtain ⟨z, rest, h⟩ := wordsFrom_begun b (w := c :: w) (by simp)
      exact ⟨c :: z, rest, by simp [wordsFrom, hc, h]⟩

/-- A text that begins with a word's beginning has a first word with that beginning. -/
theorem words_solid_append {x : Text} (hx : IsWord x) (b : Text) :
    ∃ z rest, words (x ++ b) = (x ++ z) :: rest := by
  obtain ⟨z, rest, h⟩ := wordsFrom_begun b (w := x.reverse) (by simpa using hx.ne_nil)
  refine ⟨z, rest, ?_⟩
  rw [words, wordsFrom_append_solid hx.solid, List.append_nil, h, List.reverse_reverse]

/-- A text that begins with no blank has a first word that begins with it. -/
theorem words_cons_solid {c : CodePoint} (hc : c.isBlank = false) (t : Text) :
    ∃ z ws, words (c :: t) = (c :: z) :: ws :=
  words_solid_append ⟨List.cons_ne_nil c [], List.forall_mem_singleton.mpr hc⟩ t

theorem wordsFrom_ended {x : Text} (hx : IsWord x) : ∀ a w : Text,
    ∃ rest z, wordsFrom w (a ++ x) = rest ++ [z ++ x]
  | [], w => ⟨[], w.reverse, wordsFrom_solid hx.solid w (Or.inr hx.ne_nil)⟩
  | c :: a, w => by
    by_cases hc : c.isBlank = true
    · obtain ⟨rest, z, h⟩ := wordsFrom_ended hx a []
      by_cases hw : w = []
      · exact ⟨rest, z, by simp [wordsFrom, hc, hw, h]⟩
      · exact ⟨w.reverse :: rest, z, by simp [wordsFrom, hc, hw, h]⟩
    · obtain ⟨rest, z, h⟩ := wordsFrom_ended hx a (c :: w)
      exact ⟨rest, z, by simp [wordsFrom, hc, h]⟩

/-- A text that ends in a word's end has a last word with that end. -/
theorem words_append_solid {x : Text} (hx : IsWord x) (a : Text) :
    ∃ rest z, words (a ++ x) = rest ++ [z ++ x] :=
  wordsFrom_ended hx a []

theorem isBlank_of_mem_replicate {n : Nat} : ∀ c ∈ List.replicate n space, c.isBlank = true := by
  intro c hc
  rw [(List.mem_replicate.mp hc).2]
  exact isBlank_space

/-! ## Lines laid out from words -/

/-- The words with that many spaces in front of each. -/
def spread (cells : List (Nat × Text)) : Text :=
  cells.flatMap fun cell => List.replicate cell.1 space ++ cell.2

@[simp] theorem spread_nil : spread [] = [] := rfl

@[simp] theorem spread_cons (n : Nat) (w : Text) (cells : List (Nat × Text)) :
    spread ((n, w) :: cells) = List.replicate n space ++ w ++ spread cells := rfl

theorem spread_append (a b : List (Nat × Text)) : spread (a ++ b) = spread a ++ spread b :=
  List.flatMap_append

/-- A layout in which every word can be told from the one before it. -/
def Apart (cells : List (Nat × Text)) : Prop := ∀ cell ∈ cells, 0 < cell.1 ∧ IsWord cell.2

theorem apart_nil : Apart [] := List.forall_mem_nil _

theorem Apart.cons {n : Nat} {w : Text} {cells : List (Nat × Text)} (hn : 0 < n) (hw : IsWord w)
    (h : Apart cells) : Apart ((n, w) :: cells) :=
  List.forall_mem_cons.mpr ⟨⟨hn, hw⟩, h⟩

theorem Apart.append {a b : List (Nat × Text)} (ha : Apart a) (hb : Apart b) : Apart (a ++ b) :=
  List.forall_mem_append.mpr ⟨ha, hb⟩

theorem words_append_spread {w : Text} (hw : IsWord w) :
    ∀ {cells : List (Nat × Text)}, Apart cells →
      words (w ++ spread cells) = w :: cells.map (·.2)
  | [], _ => by rw [spread_nil, List.append_nil, hw.words_eq, List.map_nil]
  | (0, v) :: cells, h => absurd (h _ List.mem_cons_self).1 (Nat.lt_irrefl 0)
  | (n + 1, v) :: cells, h => by
    have hv : IsWord v := (h _ List.mem_cons_self).2
    have hrest : Apart cells := fun cell hc => h cell (List.mem_cons_of_mem _ hc)
    rw [spread_cons, List.replicate_succ, List.append_assoc, List.cons_append,
      words_append_blank isBlank_space, hw.words_eq,
      words_blanks_append isBlank_of_mem_replicate, words_append_spread hv hrest]
    rfl

/-- **A laid-out line gives its words back.** -/
theorem words_spread {n : Nat} {w : Text} {cells : List (Nat × Text)} (hw : IsWord w)
    (h : Apart cells) : words (spread ((n, w) :: cells)) = w :: cells.map (·.2) := by
  rw [spread_cons, List.append_assoc, words_blanks_append isBlank_of_mem_replicate,
    words_append_spread hw h]

theorem not_mem_spread {c : CodePoint} (hc : c ≠ space) {cells : List (Nat × Text)}
    (h : ∀ cell ∈ cells, c ∉ cell.2) : c ∉ spread cells := by
  intro hm
  obtain ⟨cell, hcell, hm⟩ := List.mem_flatMap.mp hm
  rcases List.mem_append.mp hm with hm | hm
  · exact hc (List.mem_replicate.mp hm).2
  · exact h cell hcell hm

theorem newline_not_mem_spread {cells : List (Nat × Text)} (h : ∀ cell ∈ cells, IsWord cell.2) :
    newline ∉ spread cells :=
  not_mem_spread (by decide) fun cell hc hm => absurd ((h cell hc).solid _ hm) (by decide)

/-! ## Trimming -/

theorem dropWhile_blanks_append {b : Text} (hb : ∀ c ∈ b, c.isBlank = true) {c : CodePoint}
    (hc : c.isBlank = false) (t : Text) :
    (b ++ c :: t).dropWhile CodePoint.isBlank = c :: t := by
  induction b with
  | nil => rw [List.nil_append, List.dropWhile_cons, hc, if_neg Bool.false_ne_true]
  | cons d b ih =>
    rw [List.cons_append, List.dropWhile_cons, hb d List.mem_cons_self, if_pos rfl]
    exact ih fun e he => hb e (List.mem_cons_of_mem d he)

/-- Trimming removes the blanks around a text that neither begins nor ends with one. -/
theorem trim_blanks {a b : Text} (ha : ∀ c ∈ a, c.isBlank = true)
    (hb : ∀ c ∈ b, c.isBlank = true) {t : Text} (ht : t ≠ []) (hfirst : (t.head ht).isBlank = false)
    (hlast : (t.getLast ht).isBlank = false) : trim (a ++ t ++ b) = t := by
  have hcons : t = t.head ht :: t.tail := (List.cons_head_tail ht).symm
  have hsnoc : t.reverse = t.getLast ht :: t.dropLast.reverse := by
    conv_lhs => rw [← List.dropLast_concat_getLast ht]
    rw [List.reverse_append]
    rfl
  have hfront : (a ++ t ++ b).dropWhile CodePoint.isBlank = t ++ b := by
    rw [hcons, List.append_assoc, List.cons_append, dropWhile_blanks_append ha hfirst]
  have hb' : ∀ c ∈ b.reverse, c.isBlank = true := fun c hc => hb c (List.mem_reverse.mp hc)
  rw [trim, trimBy, trimEndBy, hfront, List.reverse_append, hsnoc,
    dropWhile_blanks_append hb' hlast, ← hsnoc, List.reverse_reverse]

theorem IsWord.head_solid {t : Text} (h : IsWord t) : (t.head h.ne_nil).isBlank = false :=
  h.solid _ (List.head_mem h.ne_nil)

theorem IsWord.getLast_solid {t : Text} (h : IsWord t) : (t.getLast h.ne_nil).isBlank = false :=
  h.solid _ (List.getLast_mem h.ne_nil)

theorem IsWord.trim_eq {t : Text} (h : IsWord t) : trim t = t := by
  simpa using trim_blanks (a := []) (b := []) (by simp) (by simp) h.ne_nil h.head_solid
    h.getLast_solid

/-- The last code point of a laid-out line belongs to its last word. -/
theorem getLast_append_spread_solid {w : Text} (hw : IsWord w) {cells : List (Nat × Text)}
    (h : Apart cells) :
    ∃ hne : w ++ spread cells ≠ [], ((w ++ spread cells).getLast hne).isBlank = false := by
  induction cells using List.reverseRecOn with
  | nil =>
    refine ⟨by simpa using hw.ne_nil, ?_⟩
    simpa using hw.getLast_solid
  | append_singleton cells cell _ =>
    have hc : IsWord cell.2 := (h cell (by simp)).2
    have hsplit : w ++ spread (cells ++ [cell])
        = (w ++ spread cells ++ List.replicate cell.1 space) ++ cell.2 := by
      simp [spread, List.append_assoc]
    have hne : w ++ spread (cells ++ [cell]) ≠ [] := by simp [hw.ne_nil]
    refine ⟨hne, ?_⟩
    simp only [hsplit, List.getLast_append_of_ne_nil _ hc.ne_nil]
    exact hc.getLast_solid

/-- **Trimming a laid-out line** removes the blanks in front of its first word and those behind it. -/
theorem trim_spread {n : Nat} {w b : Text} {cells : List (Nat × Text)} (hw : IsWord w)
    (h : Apart cells) (hb : ∀ c ∈ b, c.isBlank = true) :
    trim (spread ((n, w) :: cells) ++ b) = w ++ spread cells := by
  obtain ⟨hne, hlast⟩ := getLast_append_spread_solid hw h
  have hfirst : ((w ++ spread cells).head hne).isBlank = false := by
    rw [List.head_append_of_ne_nil hw.ne_nil]
    exact hw.head_solid
  rw [spread_cons, List.append_assoc (List.replicate n space)]
  exact trim_blanks isBlank_of_mem_replicate hb hne hfirst hlast

/-- What is cut off at the end of a text. -/
theorem exists_trimEndBy_append (p : CodePoint → Bool) (t : Text) :
    ∃ u, trimEndBy p t ++ u = t ∧ ∀ c ∈ u, p c = true := by
  refine ⟨(t.reverse.takeWhile p).reverse, ?_, fun c hc => ?_⟩
  · rw [trimEndBy, ← List.reverse_append, List.takeWhile_append_dropWhile, List.reverse_reverse]
  · exact List.mem_takeWhile_imp (List.mem_reverse.mp hc)

/-- **Trimming leaves the words alone.** -/
theorem words_trim (t : Text) : words (trim t) = words t := by
  have hfront : words (t.dropWhile CodePoint.isBlank) = words t := by
    conv_rhs => rw [← List.takeWhile_append_dropWhile (p := CodePoint.isBlank) (l := t)]
    exact (words_blanks_append (fun _ => List.mem_takeWhile_imp) _).symm
  obtain ⟨u, hsplit, hback⟩ := exists_trimEndBy_append CodePoint.isBlank (t.dropWhile CodePoint.isBlank)
  rw [← hfront]
  conv_rhs => rw [← hsplit, words_append_blanks hback]
  rfl

/-- Nothing is cut off behind a text whose last code point stays. -/
theorem trimEndBy_append {p : CodePoint → Bool} {t u : Text} (hu : ∀ c ∈ u, p c = true)
    (ht : ∀ c ∈ t.getLast?, p c = false) : trimEndBy p (t ++ u) = t := by
  have hu' : ∀ c ∈ u.reverse, p c = true := fun c hc => hu c (List.mem_reverse.mp hc)
  have hdrop : (u.reverse ++ t.reverse).dropWhile p = t.reverse := by
    rw [List.dropWhile_append_of_pos hu']
    cases h : t.reverse with
    | nil => rfl
    | cons c r =>
      have hc : c ∈ t.getLast? := by
        rw [← List.head?_reverse, h]
        rfl
      rw [List.dropWhile_cons, ht c hc, if_neg Bool.false_ne_true]
  rw [trimEndBy, List.reverse_append, hdrop, List.reverse_reverse]

/-- Code points that are cut off anyway may be put behind a text. -/
theorem trimEndBy_append_of_pos {p : CodePoint → Bool} {u : Text} (hu : ∀ c ∈ u, p c = true) (t : Text) :
    trimEndBy p (t ++ u) = trimEndBy p t := by
  have hu' : ∀ c ∈ u.reverse, p c = true := fun c hc => hu c (List.mem_reverse.mp hc)
  rw [trimEndBy, List.reverse_append, List.dropWhile_append_of_pos hu', trimEndBy]

/-- What stays in front stays whatever stands behind it. -/
theorem trimEndBy_append_solid {p : CodePoint → Bool} {x : Text} (hx : ∀ c ∈ x, p c = false) (y : Text) :
    trimEndBy p (x ++ y) = x ++ trimEndBy p y := by
  have hstays : x.reverse.dropWhile p = x.reverse := by
    cases h : x.reverse with
    | nil => rfl
    | cons c r =>
      have hc : c ∈ x := List.mem_reverse.mp (h ▸ List.mem_cons_self)
      rw [List.dropWhile_cons, hx c hc, if_neg Bool.false_ne_true]
  rw [trimEndBy, trimEndBy, List.reverse_append, List.dropWhile_append, hstays]
  split
  · rename_i hnil
    rw [List.isEmpty_iff.mp hnil]
    simp
  · simp

/-- Blanks behind a text are trimmed off. -/
theorem trim_append_blanks {b : Text} (hb : ∀ c ∈ b, c.isBlank = true) (t : Text) :
    trim (t ++ b) = trim t := by
  have hnone : b.dropWhile CodePoint.isBlank = [] := List.dropWhile_eq_nil_iff.mpr hb
  rw [trim, trimBy, List.dropWhile_append, trim, trimBy]
  split
  · rename_i hnil
    rw [hnone, List.isEmpty_iff.mp hnil]
  · exact trimEndBy_append_of_pos hb _

/-- A trimmed text is trimmed. -/
theorem trim_trim (t : Text) : trim (trim t) = trim t := by
  show trimEndBy CodePoint.isBlank ((trim t).dropWhile CodePoint.isBlank) = trim t
  have hbegin : trim t <+: t.dropWhile CodePoint.isBlank := List.rdropWhile_prefix _ _
  have hfront : (trim t).dropWhile CodePoint.isBlank = trim t := by
    refine List.dropWhile_eq_self_iff.mpr fun hl => ?_
    rw [hbegin.getElem hl]
    exact List.dropWhile_eq_self_iff.mp (List.dropWhile_idempotent _ t) _
  rw [hfront]
  exact List.rdropWhile_idempotent _ _

/-- A text that begins with a word still does when it is trimmed. -/
theorem exists_trim_append {x : Text} (hx : IsWord x) (y : Text) : ∃ z, trim (x ++ y) = x ++ z := by
  refine ⟨trimEndBy CodePoint.isBlank y, ?_⟩
  have hfront : (x ++ y).dropWhile CodePoint.isBlank = x ++ y := by
    obtain ⟨c, x, rfl⟩ := List.exists_cons_of_ne_nil hx.ne_nil
    rw [List.cons_append, List.dropWhile_cons, hx.solid c List.mem_cons_self,
      if_neg Bool.false_ne_true]
  rw [trim, trimBy, hfront, trimEndBy_append_solid hx.solid]

/-! ## Lines -/

theorem pieces_append_of_not_mem {sep : CodePoint} {l t p : Text} {ps : List Text} (h : sep ∉ l)
    (ht : pieces sep t = p :: ps) : pieces sep (l ++ t) = (l ++ p) :: ps := by
  induction l with
  | nil => exact ht
  | cons c l ih =>
    rw [List.mem_cons, not_or] at h
    rw [List.cons_append, pieces, if_neg (Ne.symm h.1), ih h.2]
    rfl

theorem pieces_of_not_mem {sep : CodePoint} {l : Text} (h : sep ∉ l) : pieces sep l = [l] := by
  simpa using pieces_append_of_not_mem (t := []) h rfl

/-- Pieces end at a separator. -/
theorem pieces_append (sep : CodePoint) (b : Text) :
    ∀ a : Text, pieces sep (a ++ sep :: b) = pieces sep a ++ pieces sep b
  | [] => by simp [pieces]
  | c :: a => by
    rw [List.cons_append, pieces, pieces, pieces_append sep b a]
    obtain ⟨p, ps, hp⟩ := List.exists_cons_of_ne_nil (pieces_ne_nil sep a)
    rw [hp]
    split <;> rfl

theorem pieces_append_sep {sep : CodePoint} {l : Text} (h : sep ∉ l) (t : Text) :
    pieces sep (l ++ sep :: t) = l :: pieces sep t := by
  rw [pieces_append, pieces_of_not_mem h]
  rfl

/-- **Lines end at a line feed.** -/
theorem lines_append_newline (a b : Text) : lines (a ++ newline :: b) = lines a ++ lines b :=
  pieces_append newline b a

/-- The lines, each ended by a line feed. -/
def unlines (ls : List Text) : Text := ls.flatMap fun l => l ++ [newline]

/-- **Lines are read back as they were written**, with an empty one behind the last line feed. -/
theorem lines_unlines {ls : List Text} (h : ∀ l ∈ ls, newline ∉ l) :
    lines (unlines ls) = ls ++ [[]] := by
  induction ls with
  | nil => rfl
  | cons l ls ih =>
    have hl : unlines (l :: ls) = l ++ newline :: unlines ls := by simp [unlines]
    rw [hl, lines, pieces_append_sep (h l List.mem_cons_self), ← lines,
      ih fun m hm => h m (List.mem_cons_of_mem l hm)]
    rfl

/-! ## Labels and cuts -/

theorem cut?_append {c : CodePoint} {a : Text} (h : c ∉ a) (b : Text) :
    cut? c (a ++ c :: b) = some (a, b) := by
  induction a with
  | nil => rw [List.nil_append, cut?, if_pos rfl]
  | cons d a ih =>
    rw [List.mem_cons, not_or] at h
    rw [List.cons_append, cut?, if_neg (Ne.symm h.1), ih h.2]
    rfl

@[simp] theorem afterLabel?_append (l r : Text) : afterLabel? l (l ++ r) = some r :=
  afterLabel?_eq_some_iff.mpr rfl

@[simp] theorem hasLabel_append (l r : Text) : hasLabel l (l ++ r) = true := by simp [hasLabel]

theorem hasLabel_iff {l t : Text} : hasLabel l t = true ↔ ∃ r, t = l ++ r := by
  rw [hasLabel, Option.isSome_iff_exists]
  simp only [afterLabel?_eq_some_iff]

theorem afterLabel?_of_head_ne {c d : CodePoint} (h : c ≠ d) (l t : Text) :
    afterLabel? (c :: l) (d :: t) = none := by rw [afterLabel?, if_neg h]

theorem hasLabel_of_head_ne {c d : CodePoint} (h : c ≠ d) (l t : Text) :
    hasLabel (c :: l) (d :: t) = false := by rw [hasLabel, afterLabel?_of_head_ne h]; rfl

/-- A text does not end in a suffix with a code point that it has not. -/
theorem beforeSuffix?_of_not_mem {c : CodePoint} {s t : Text} (hc : c ∈ s) (h : c ∉ t) :
    beforeSuffix? s t = none := by
  rw [Option.eq_none_iff_forall_ne_some]
  intro r hr
  rw [beforeSuffix?_eq_some_iff.mp hr] at h
  exact h (List.mem_append_right r hc)

theorem includes_iff {l : Text} : ∀ {t : Text}, includes l t = true ↔ ∃ a b, t = a ++ l ++ b
  | [] => by
    simp only [includes, hasLabel_iff]
    constructor
    · rintro ⟨r, h⟩
      exact ⟨[], r, by simpa using h⟩
    · rintro ⟨a, b, h⟩
      have := List.append_eq_nil_iff.mp h.symm
      have := List.append_eq_nil_iff.mp this.1
      exact ⟨[], by simp [this.2]⟩
  | c :: t => by
    rw [includes, Bool.or_eq_true, hasLabel_iff, includes_iff]
    constructor
    · rintro (⟨r, h⟩ | ⟨a, b, rfl⟩)
      · exact ⟨[], r, by simpa using h⟩
      · exact ⟨c :: a, b, by simp⟩
    · rintro ⟨a, b, h⟩
      cases a with
      | nil => exact Or.inl ⟨b, by simpa using h⟩
      | cons d a =>
        simp only [List.cons_append, List.cons.injEq] at h
        exact Or.inr ⟨a, b, h.2⟩

/-- What stands behind a label may end in a code point that the label has not. -/
theorem afterLabel?_concat {c : CodePoint} : ∀ {l : Text}, c ∉ l → ∀ t : Text,
    afterLabel? l (t ++ [c]) = (afterLabel? l t).map (· ++ [c])
  | [], _, t => rfl
  | d :: l, h, [] => by
    have hne : d ≠ c := fun heq => h (List.mem_cons.mpr (.inl heq.symm))
    exact afterLabel?_of_head_ne hne l []
  | d :: l, h, e :: t => by
    rw [List.cons_append, afterLabel?, afterLabel?]
    split_ifs
    · exact afterLabel?_concat (fun hc => h (List.mem_cons_of_mem d hc)) t
    · rfl

theorem hasLabel_concat {c : CodePoint} {l : Text} (h : c ∉ l) (t : Text) :
    hasLabel l (t ++ [c]) = hasLabel l t := by
  rw [hasLabel, afterLabel?_concat h, Option.isSome_map, hasLabel]

theorem includes_concat {c : CodePoint} {l : Text} (h : c ∉ l) :
    ∀ t : Text, includes l (t ++ [c]) = includes l t
  | [] => by
    have hnil : hasLabel l [c] = hasLabel l [] := hasLabel_concat h []
    rw [List.nil_append, includes, includes, includes, hnil, Bool.or_self]
  | d :: t => by
    have hhead : hasLabel l (d :: (t ++ [c])) = hasLabel l (d :: t) := hasLabel_concat h (d :: t)
    rw [List.cons_append, includes, includes, hhead, includes_concat h t]

/-! ## Words with one space between each two -/

theorem join_eq_spread (w : Text) (ws : List Text) :
    join [space] (w :: ws) = spread ((0, w) :: ws.map fun v => (1, v)) := by
  induction ws generalizing w with
  | nil => simp [join]
  | cons v ws ih =>
    have h : join [space] (w :: v :: ws) = w ++ [space] ++ join [space] (v :: ws) := rfl
    rw [h, ih]
    simp

theorem apart_single {ws : List Text} (h : ∀ w ∈ ws, IsWord w) :
    Apart (ws.map fun w => (1, w)) := by
  intro cell hc
  obtain ⟨w, hw, rfl⟩ := List.mem_map.mp hc
  exact ⟨Nat.one_pos, h w hw⟩

theorem map_snd_single (ws : List Text) : (ws.map fun w => ((1 : Nat), w)).map (·.2) = ws := by
  rw [List.map_map]
  exact List.map_id ws

end CakeMonitor.Text
