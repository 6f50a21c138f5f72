import CakeMonitor.Json.Value
import CakeMonitor.Number.Numeral
import CakeMonitor.Text.Encoding
import CakeMonitor.Text.Split
/-!
# JSON tokens

The words of a JSON document, as `parse_json_stats` accepts them: punctuation, and the scalars, with `NaN`
and the infinities among them. An integer may have a limited number of digits; a number with a fraction or
an exponent is a real. In a text, control characters must be escaped, and an escaped surrogate pair is one
code point while a lone surrogate stays one.

* `Json.Token.read?`: the token at the beginning of a text.
* `Json.tokens?`: all tokens of a document.
-/

namespace CakeMonitor.Json

/-- A word of a JSON document. -/
inductive Token where
  | openArray
  | closeArray
  | openObject
  | closeObject
  | comma
  | colon
  | scalar (v : Json)

/-- A position of a quoted text: as it stands, or escaped by its number. -/
inductive Quoted where
  | plain (c : CodePoint)
  | escaped (n : Nat)

namespace Quoted

/-- The text of quoted positions: escaped surrogates pair up. -/
def unescape : List Quoted → Text
  | [] => []
  | .plain c :: qs => c :: unescape qs
  | [.escaped n] => [.ofNat n]
  | .escaped n :: .plain c :: qs => .ofNat n :: c :: unescape qs
  | .escaped n :: .escaped m :: qs =>
    if Encoding.isHighSurrogate n && Encoding.isLowSurrogate m then
      Encoding.pairedSurrogates n m :: unescape qs
    else .ofNat n :: unescape (.escaped m :: qs)

end Quoted

/-- The value of a hexadecimal digit. -/
def hexDigit? (c : CodePoint) : Option Nat :=
  if 0x30 ≤ c.val ∧ c.val ≤ 0x39 then some (c.val - 0x30)
  else if 0x41 ≤ c.val ∧ c.val ≤ 0x46 then some (c.val - 0x41 + 10)
  else if 0x61 ≤ c.val ∧ c.val ≤ 0x66 then some (c.val - 0x61 + 10)
  else none

/-- The number of four hexadecimal digits. -/
def hex4? (a b c d : CodePoint) : Option Nat := do
  return (((← hexDigit? a) * 16 + (← hexDigit? b)) * 16 + (← hexDigit? c)) * 16 + (← hexDigit? d)

/-- The letters that stand for a character behind a backslash. -/
def escapes : List (Char × Char) :=
  [('"', '"'), ('\\', '\\'), ('/', '/'), ('b', '\x08'), ('f', '\x0c'), ('n', '\n'), ('r', '\r'),
   ('t', '\t')]

/-- The character that an escape letter stands for. -/
def escape? (c : CodePoint) : Option CodePoint :=
  (escapes.find? fun e => c = e.1).map fun e => e.2

/-- The positions of a quoted text up to its closing quote, and what follows. -/
def quoted? : Text → Option (List Quoted × Text)
  | [] => none
  | c :: t =>
    if c = '"' then some ([], t)
    else if c = '\\' then
      match t with
      | [] => none
      | e :: t =>
        if e = 'u' then
          match t with
          | a :: b :: c :: d :: t => do
            let n ← hex4? a b c d
            let (qs, t) ← quoted? t
            return (.escaped n :: qs, t)
          | _ => none
        else do
          let c ← escape? e
          let (qs, t) ← quoted? t
          return (.plain c :: qs, t)
    else if c.val < 0x20 then none
    else do
      let (qs, t) ← quoted? t
      return (.plain c :: qs, t)

/-- Whether the code point is an ASCII digit. -/
def isDigit (c : CodePoint) : Bool := 0x30 ≤ c.val && c.val ≤ 0x39

/-- The digits at the beginning, and what follows them. -/
def digits (t : Text) : Text × Text := (t.takeWhile isDigit, t.dropWhile isDigit)

/-- A point with digits behind it, and what follows; without it nothing is taken. -/
def fraction (t : Text) : Text × Text :=
  match t with
  | [] => ([], t)
  | c :: s =>
    let (ds, rest) := digits s
    if c = '.' ∧ ds ≠ [] then (ds, rest) else ([], t)

/-- An exponent with its digits, and what follows; without it nothing is taken. -/
def exponent (t : Text) : Option Int × Text :=
  match t with
  | [] => (none, t)
  | c :: s =>
    let (negative, s) : Bool × Text := match s with
      | [] => (false, [])
      | d :: r => if d = '-' then (true, r) else if d = '+' then (false, r) else (false, s)
    let (ds, rest) := digits s
    if (c = 'e' ∨ c = 'E') ∧ ds ≠ [] then
      let n : Int := Numeral.ofDigits (Numeral.leading ds)
      (some (if negative then -n else n), rest)
    else (none, t)

/-- The whole part of a number: a zero alone, or digits that begin with no zero. -/
def whole (t : Text) : Text × Text :=
  match t with
  | [] => ([], t)
  | c :: s => if c = '0' then ([c], s) else digits t

/-- A number without its minus sign, and what follows. -/
def unsigned? (limit : Option Nat) (negative : Bool) (t : Text) : Option (Json × Text) :=
  let (ds, t) := whole t
  if ds = [] then none
  else
    let (fs, t) := fraction t
    let (e, t) := exponent t
    let value := Numeral.ofDigits (Numeral.leading (ds ++ fs))
    if fs = [] ∧ e = none then
      if limit.any (· < ds.length) then none
      else some (.int (if negative then -value else value), t)
    else some (.real (.ofDecimal negative value (e.getD 0 - fs.length)), t)

/-- The scalars that are words. -/
def words : List (Text × Json) :=
  [("null", .null), ("true", .bool true), ("false", .bool false), ("NaN", .real .nan),
   ("Infinity", .real (.infinite false)), ("-Infinity", .real (.infinite true))]

/-- The punctuation. -/
def marks : List (Char × Token) :=
  [('[', .openArray), (']', .closeArray), ('\x7b', .openObject), ('\x7d', .closeObject),
   (',', .comma), (':', .colon)]

/-- The word at the beginning, and what follows. -/
def word? (t : Text) : Option (Json × Text) :=
  words.findSome? fun (w, v) => (Text.afterLabel? w t).map (v, ·)

/-- The number at the beginning, and what follows. -/
def number? (limit : Option Nat) : Text → Option (Json × Text)
  | [] => none
  | c :: t => if c = '-' then unsigned? limit true t else unsigned? limit false (c :: t)

/-- The token at the beginning of a text, and what follows. -/
def Token.read? (limit : Option Nat) : Text → Option (Token × Text)
  | [] => none
  | c :: t =>
    match marks.find? fun m => c = m.1 with
    | some m => some (m.2, t)
    | none =>
      if c = '"' then (quoted? t).map fun (qs, t) => (.scalar (.text (Quoted.unescape qs)), t)
      else ((word? (c :: t)).orElse fun _ => number? limit (c :: t)).map fun (v, t) => (.scalar v, t)

/-- The white space between tokens. -/
def isSpace (c : CodePoint) : Bool :=
  c.val = 0x20 || c.val = 0x09 || c.val = 0x0a || c.val = 0x0d

/-- The tokens of a text, at most `fuel` of them. -/
def tokensWithin (limit : Option Nat) : Nat → Text → Option (List Token)
  | 0, t => if t.all isSpace then some [] else none
  | fuel + 1, t =>
    match t.dropWhile isSpace with
    | [] => some []
    | c :: t => do
      let (token, t) ← Token.read? limit (c :: t)
      return token :: (← tokensWithin limit fuel t)

/-- The tokens of a text; a token has at least one code point, so their number is bounded. -/
def tokens? (limit : Option Nat) (t : Text) : Option (List Token) :=
  tokensWithin limit t.length t

end CakeMonitor.Json
