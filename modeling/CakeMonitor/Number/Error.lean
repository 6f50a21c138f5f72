import CakeMonitor.Text.CodePoint
/-!
# What goes wrong with numbers

Reading a numeral, printing an integer and computing with doubles fail for few reasons. Each has a
kind, under which it is logged, and a message. They come out of `parse_uint`, `parse_bytes`, `format_bytes`,
`_json_uint` and `_rate`, which raise none of their own.

* `NumberError`: the reasons.
* `NumberError.kind`, `NumberError.message`: how they are reported.
-/

namespace CakeMonitor

/-- The longest integer, in decimal digits, that is read or printed. -/
def digitLimit : Nat := 4300

/-- Why a number could not be read, printed or computed. -/
inductive NumberError where
  /-- the token has a digit without decimal value -/
  | notANumeral (token : Text)
  | tooManyDigits (count : Nat)
  | tooLongToPrint
  | nanToInteger
  | infinityToInteger
  | integerTooLarge
  | divisionByZero
  deriving DecidableEq

namespace NumberError

/-- The kind under which the reason is reported. -/
def kind : NumberError → String
  | .notANumeral _ | .tooManyDigits _ | .tooLongToPrint | .nanToInteger => "ValueError"
  | .infinityToInteger | .integerTooLarge => "OverflowError"
  | .divisionByZero => "ZeroDivisionError"

/-- A token in single quotes, cut off behind 200 characters. -/
def quoted (token : Text) : Text := ((("'" : Text) ++ token ++ ("'" : Text)).take 200)

/-- The beginning of the messages on over-long integers. -/
def limitExceeded : Text :=
  ("Exceeds the limit (" : Text) ++ Text.ofNat digitLimit ++
    (" digits) for integer string conversion" : Text)

/-- The end of the messages on over-long integers. -/
def limitAdvice : Text := "; use sys.set_int_max_str_digits() to increase the limit"

/-- The message of the reason. -/
def message : NumberError → Text
  | .notANumeral token => ("invalid literal for int() with base 10: " : Text) ++ quoted token
  | .tooManyDigits n =>
    limitExceeded ++ (": value has " : Text) ++ Text.ofNat n ++ (" digits" : Text) ++ limitAdvice
  | .tooLongToPrint => limitExceeded ++ limitAdvice
  | .nanToInteger => "cannot convert float NaN to integer"
  | .infinityToInteger => "cannot convert float infinity to integer"
  | .integerTooLarge => "int too large to convert to float"
  | .divisionByZero => "float division by zero"

end NumberError

/-- The decimal digits of an integer, when they are not too many to print. -/
def printInt (i : Int) : Except NumberError Text :=
  if (Nat.toDigits 10 i.natAbs).length ≤ digitLimit then .ok (Text.ofInt i)
  else .error .tooLongToPrint

end CakeMonitor
