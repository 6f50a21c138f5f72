import CakeMonitor.Text.CodePoint
/-!
# Blanks

Which code points count as white space, and the texts without them at their ends. The readers of reports
(`parse_uint`, `parse_header` and the others) strip and split their texts by `isBlank`; a numeral is read
behind padding.

* `CodePoint.isBlank`: the white space that separates the words of a report.
* `CodePoint.isPadding`: the white space allowed around a number; the information separators
  U+001C to U+001F are blanks and no padding.
* `Text.trim`, `Text.trimEndBy`: a text without such code points at both ends, or at the end.
-/

namespace CakeMonitor

namespace CodePoint

/-- The information separators, which separate words and pad no number. -/
def separators : Table := [(0x1c, 0x1f)]

/-- The white space around numbers. -/
def paddings : Table :=
  [(0x09, 0x0d), (0x20, 0x20), (0x85, 0x85), (0xa0, 0xa0), (0x1680, 0x1680), (0x2000, 0x200a),
   (0x2028, 0x2029), (0x202f, 0x202f), (0x205f, 0x205f), (0x3000, 0x3000)]

/-- White space around a number. -/
def isPadding (c : CodePoint) : Bool := c.isIn paddings

/-- White space between words; neither U+200B nor U+FEFF is. -/
def isBlank (c : CodePoint) : Bool := c.isPadding || c.isIn separators

/-- Every character that core calls white space pads numbers. -/
theorem isPadding_of_isWhitespace {c : Char} (h : c.isWhitespace = true) :
    isPadding c = true := by
  simp only [Char.isWhitespace, Bool.or_eq_true, decide_eq_true_eq] at h
  rcases h with ((h | h) | h) | h <;> subst h <;> decide

end CodePoint

namespace Text

/-- The text without the code points at its end that satisfy `p`. -/
def trimEndBy (p : CodePoint → Bool) (t : Text) : Text := (t.reverse.dropWhile p).reverse

/-- The text without the code points at both ends that satisfy `p`. -/
def trimBy (p : CodePoint → Bool) (t : Text) : Text := trimEndBy p (t.dropWhile p)

/-- The text without blanks at both ends. -/
def trim (t : Text) : Text := trimBy CodePoint.isBlank t

end Text

end CakeMonitor
