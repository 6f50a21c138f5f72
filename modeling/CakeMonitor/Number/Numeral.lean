import CakeMonitor.Number.Binary64
import CakeMonitor.Text.Blank
import CakeMonitor.Text.Digit
/-!
# Numerals

How the numbers of a report are spelled.

* `Numeral.natural`: a token of digits as a natural number, as `parse_uint` and `parse_bytes` read it. The
  digits may come from any script; one without decimal value, or too many of them, is an error.
* `Numeral.real?`: a real with padding, sign, point, exponent and single underscores between digits,
  or one of the names of NaN and infinity. `_split_delay` reads the number of a delay so.
-/

namespace CakeMonitor.Numeral

/-- The number that decimal digits make up, the most significant first. -/
def ofDigits (ds : List Nat) : Nat := ds.foldl (fun n d => 10 * n + d) 0

/-- The values of the decimal digits at the beginning. -/
def leading : Text → List Nat
  | [] => []
  | c :: t => match c.decimal? with
    | some d => d :: leading t
    | none => []

/-- The natural number that a token of digits spells. Too long a run of decimal digits at its
beginning is noticed before a digit without value behind them. -/
def natural (token : Text) : Except NumberError Nat :=
  let ds := leading token
  if digitLimit < ds.length then .error (.tooManyDigits ds.length)
  else if ds.length = token.length then .ok (ofDigits ds)
  else .error (.notANumeral token)

/-- A code point of a real in ASCII: a decimal digit of any script as that digit, and a question mark
for what no real has. -/
def fold (c : CodePoint) : Char :=
  match c.decimal? with
  | some d => Nat.digitChar d
  | none => if c.val < 0x80 then Char.ofNat c.val else '?'

/-- Remove the underscores, each of which must stand between two digits; `afterDigit` tells whether
a digit came before. -/
def dropUnderscores (afterDigit : Bool) : List Char → Option (List Char)
  | [] => some []
  | '_' :: d :: cs =>
    if afterDigit && d.isDigit then (dropUnderscores true cs).map (d :: ·) else none
  | c :: cs => if c = '_' then none else (dropUnderscores c.isDigit cs).map (c :: ·)

/-- The digits at the beginning, and what follows them. -/
def splitDigits (cs : List Char) : List Char × List Char :=
  (cs.takeWhile Char.isDigit, cs.dropWhile Char.isDigit)

/-- The sign at the beginning, where minus counts as set, and what follows it. -/
def splitSign : List Char → Bool × List Char
  | '-' :: cs => (true, cs)
  | '+' :: cs => (false, cs)
  | cs => (false, cs)

/-- The digits behind a point, and what follows them. -/
def splitFraction : List Char → List Char × List Char
  | '.' :: cs => splitDigits cs
  | cs => ([], cs)

/-- The number that ASCII digits spell. -/
def ofChars (cs : List Char) : Nat := Nat.ofDigitChars 10 cs 0

/-- The exponent that ends a real: nothing, or `e` with a sign and digits. -/
def exponent? : List Char → Option Int
  | [] => some 0
  | e :: cs =>
    let (negative, ds) := splitSign cs
    if (e = 'e' || e = 'E') && ds ≠ [] && ds.all Char.isDigit then
      some (if negative then -(ofChars ds : Int) else ofChars ds)
    else none

/-- A real without sign: digits, a point and an exponent, with a digit before or behind the point. -/
def decimal? (cs : List Char) : Option (Nat × Int) :=
  let (whole, cs) := splitDigits cs
  let (fraction, cs) := splitFraction cs
  if whole = [] ∧ fraction = [] then none
  else (exponent? cs).map fun e => (ofChars (whole ++ fraction), e - fraction.length)

/-- A real without padding and underscores. -/
def bare? (cs : List Char) : Option Binary64 :=
  let (negative, cs) := splitSign cs
  let word := cs.map Char.toLower
  if word = ['n', 'a', 'n'] then some .nan
  else if word = ['i', 'n', 'f'] ∨ word = ['i', 'n', 'f', 'i', 'n', 'i', 't', 'y'] then
    some (.infinite negative)
  else (decimal? cs).map fun (digits, e) => .ofDecimal negative digits e

/-- The double that a real spells. -/
def real? (t : Text) : Option Binary64 :=
  (dropUnderscores false ((t.trimBy CodePoint.isPadding).map fold)).bind bare?

end CakeMonitor.Numeral
