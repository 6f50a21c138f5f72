import CakeMonitor.Text.Blank
/-!
# Cutting texts

The ways in which reports are cut up: into lines (`split_blocks`), into words (`parse_header`,
`parse_sent_line`), at a mark (`parse_min_max`), behind a label (`parse_cake_block`).

* `Text.pieces c t`: what stands between the occurrences of `c`, always at least one piece.
* `Text.words t`: the maximal runs without blanks.
* `Text.cut? c t`: what stands before and after the first `c`.
* `Text.afterLabel? l t`, `Text.beforeSuffix? s t`: the rest of a text that begins with `l` or ends in `s`.
-/

namespace CakeMonitor.Text

/-- Put a code point in front of the first piece. -/
def consFirst (c : CodePoint) : List Text → List Text
  | [] => [[c]]
  | p :: ps => (c :: p) :: ps

/-- The pieces between the occurrences of `sep`. -/
def pieces (sep : CodePoint) : Text → List Text
  | [] => [[]]
  | c :: t => if c = sep then [] :: pieces sep t else consFirst c (pieces sep t)

theorem consFirst_ne_nil (c : CodePoint) (ps : List Text) : consFirst c ps ≠ [] := by
  cases ps <;> simp [consFirst]

theorem pieces_ne_nil (sep : CodePoint) (t : Text) : pieces sep t ≠ [] := by
  cases t with
  | nil => simp [pieces]
  | cons c t =>
    rw [pieces]
    split
    · simp
    · exact consFirst_ne_nil c _

theorem join_consFirst (sep : Text) (c : CodePoint) {ps : List Text} (h : ps ≠ []) :
    join sep (consFirst c ps) = c :: join sep ps := by
  match ps, h with
  | [p], _ => rfl
  | p :: q :: qs, _ => rfl

/-- Nothing but the separators is lost. -/
theorem join_pieces (sep : CodePoint) (t : Text) : join [sep] (pieces sep t) = t := by
  induction t with
  | nil => rfl
  | cons c t ih =>
    rw [pieces]
    split
    · rename_i h
      subst h
      match hp : pieces c t with
      | [] => exact absurd hp (pieces_ne_nil c t)
      | p :: ps => rw [hp] at ih; simp [join, ih]
    · rw [join_consFirst _ _ (pieces_ne_nil sep t), ih]

/-- The lines of a report; only a line feed ends a line. -/
def lines (t : Text) : List Text := pieces '\n' t

/-- The words of a text whose first code points `w` have been read, in reverse. -/
def wordsFrom (w : Text) : Text → List Text
  | [] => if w = [] then [] else [w.reverse]
  | c :: t =>
    if c.isBlank then
      if w = [] then wordsFrom [] t else w.reverse :: wordsFrom [] t
    else wordsFrom (c :: w) t

/-- The maximal runs without blanks. -/
def words (t : Text) : List Text := wordsFrom [] t

/-- What stands before and after the first `c`. -/
def cut? (c : CodePoint) : Text → Option (Text × Text)
  | [] => none
  | d :: t => if d = c then some ([], t) else (cut? c t).map fun (a, b) => (d :: a, b)

/-- The rest of a text that begins with the label. -/
def afterLabel? : Text → Text → Option Text
  | [], t => some t
  | _ :: _, [] => none
  | c :: l, d :: t => if c = d then afterLabel? l t else none

theorem afterLabel?_eq_some_iff {l t r : Text} : afterLabel? l t = some r ↔ t = l ++ r := by
  induction l generalizing t with
  | nil => simp [afterLabel?]
  | cons c l ih =>
    cases t with
    | nil => simp [afterLabel?]
    | cons d t =>
      by_cases h : c = d
      · simp [afterLabel?, h, ih]
      · simp [afterLabel?, h, Ne.symm h]

/-- Whether a text begins with the label. -/
def hasLabel (l t : Text) : Bool := (afterLabel? l t).isSome

/-- The text in front of that suffix. -/
def beforeSuffix? (s t : Text) : Option Text :=
  (afterLabel? s.reverse t.reverse).map List.reverse

theorem beforeSuffix?_eq_some_iff {s t r : Text} : beforeSuffix? s t = some r ↔ t = r ++ s := by
  simp only [beforeSuffix?, Option.map_eq_some_iff, afterLabel?_eq_some_iff]
  constructor
  · rintro ⟨u, h, rfl⟩
    simpa using congrArg List.reverse h
  · rintro rfl
    exact ⟨r.reverse, by simp⟩

/-- Whether the label stands anywhere in the text. -/
def includes (l : Text) : Text → Bool
  | [] => hasLabel l []
  | c :: t => hasLabel l (c :: t) || includes l t

end CakeMonitor.Text
