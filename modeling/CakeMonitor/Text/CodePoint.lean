/-!
# Code points and texts

A report, a JSON document or a setting is a sequence of Unicode code points. JSON escapes can name a
lone surrogate, which no `Char` is, so a text here is a list of code points `0 … 10FFFF` with the
surrogates among them.

* `CodePoint`: a number below `110000₁₆`, with `ofChar` and `toChar?` between it and `Char`.
* `Text`: a list of code points, with `ofString` for the literals of the program.
* `CodePoint.Table`: a character class given by ranges, as the Unicode data files list it.
-/

namespace CakeMonitor

/-- A Unicode code point; a surrogate is one too. -/
structure CodePoint where
  val : Nat
  isLt : val < 0x110000
  deriving DecidableEq

namespace CodePoint

/-- U+FFFD, which stands for what could not be decoded. -/
def replacement : CodePoint := ⟨0xfffd, by decide⟩

/-- The code point of that number, and U+FFFD for a number that is none. -/
def ofNat (n : Nat) : CodePoint :=
  if h : n < 0x110000 then ⟨n, h⟩ else replacement

theorem val_ofNat {n : Nat} (h : n < 0x110000) : (ofNat n).val = n := by simp [ofNat, h]

/-- A character is a code point. -/
def ofChar (c : Char) : CodePoint :=
  ⟨c.toNat, by
    have := c.valid
    simp only [UInt32.isValidChar, Nat.isValidChar] at this
    simp only [Char.toNat]
    omega⟩

instance : Coe Char CodePoint := ⟨ofChar⟩

/-- The character at a code point; a surrogate has none. -/
def toChar? (c : CodePoint) : Option Char :=
  if h : c.val.isValidChar then some (Char.ofNatAux c.val h) else none

instance : Inhabited CodePoint := ⟨replacement⟩

/-- A character class as closed ranges of code points. -/
abbrev Table := List (Nat × Nat)

/-- Membership in a class. -/
def isIn (c : CodePoint) (t : Table) : Bool :=
  t.any fun r => r.1 ≤ c.val && c.val ≤ r.2

end CodePoint

/-- A text: its code points in order. -/
abbrev Text := List CodePoint

instance : LawfulBEq Text := inferInstance

namespace Text

/-- The code points of a string. -/
def ofString (s : String) : Text := s.toList.map CodePoint.ofChar

instance : Coe String Text := ⟨ofString⟩

/-- The pieces with a separator between each two. -/
def join (sep : Text) : List Text → Text
  | [] => []
  | [t] => t
  | t :: ts => t ++ sep ++ join sep ts

/-- The decimal digits of a natural number. -/
def ofNat (n : Nat) : Text := (Nat.toDigits 10 n).map CodePoint.ofChar

/-- The decimal digits of an integer, after a minus sign when it is negative. -/
def ofInt (i : Int) : Text := if i < 0 then '-' :: ofNat i.natAbs else ofNat i.natAbs

/-- The text as a string, with U+FFFD for each surrogate. -/
def toString (t : Text) : String :=
  String.ofList (t.map fun c => c.toChar?.getD (Char.ofNat 0xfffd))

end Text

end CakeMonitor
