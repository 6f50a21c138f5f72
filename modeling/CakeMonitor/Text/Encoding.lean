import CakeMonitor.Text.Utf8
/-!
# Encodings of a JSON document

A JSON document given as octets, as `parse_json_stats` takes it too, is UTF-8, UTF-16 or UTF-32. A byte
order mark tells which; without one the zero octets among the first four do, since a document begins with
an ASCII character.

* `Encoding.detect`: the encoding of a document and its octets behind the mark.
* `Encoding.decode?`: its text, where lone surrogates pass.
-/

namespace CakeMonitor

/-- An encoding of Unicode text; the wider ones with the more significant octet first or last. -/
inductive Encoding where
  | utf8
  | utf16 (bigEndian : Bool)
  | utf32 (bigEndian : Bool)
  deriving DecidableEq

namespace Encoding

/-- The encoding of octets that begin with no byte order mark. -/
def detectUnmarked : Octets → Encoding
  | [a, b] =>
    if a = 0 then .utf16 true else if b = 0 then .utf16 false else .utf8
  | a :: b :: c :: d :: _ =>
    if a = 0 then (if b = 0 then .utf32 true else .utf16 true)
    else if b = 0 then (if c = 0 ∧ d = 0 then .utf32 false else .utf16 false)
    else .utf8
  | _ => .utf8

/-- The encoding of a document, and its octets behind the byte order mark. -/
def detect : Octets → Encoding × Octets
  | 0x00 :: 0x00 :: 0xfe :: 0xff :: bs => (.utf32 true, bs)
  | 0xff :: 0xfe :: 0x00 :: 0x00 :: bs => (.utf32 false, bs)
  | 0xfe :: 0xff :: bs => (.utf16 true, bs)
  | 0xff :: 0xfe :: bs => (.utf16 false, bs)
  | 0xef :: 0xbb :: 0xbf :: bs => (.utf8, bs)
  | bs => (detectUnmarked bs, bs)

/-- The number that octets make up. -/
def number (bigEndian : Bool) (bs : Octets) : Nat :=
  (if bigEndian then bs else bs.reverse).foldl (fun n b => 256 * n + b.toNat) 0

/-- The 16-bit units of the octets, if they come out even. -/
def units16? (bigEndian : Bool) : Octets → Option (List Nat)
  | [] => some []
  | a :: b :: bs => (units16? bigEndian bs).map (number bigEndian [a, b] :: ·)
  | _ => none

/-- The 32-bit units of the octets, if they come out even. -/
def units32? (bigEndian : Bool) : Octets → Option (List Nat)
  | [] => some []
  | a :: b :: c :: d :: bs => (units32? bigEndian bs).map (number bigEndian [a, b, c, d] :: ·)
  | _ => none

/-- The first half of a surrogate pair. -/
def isHighSurrogate (n : Nat) : Bool := 0xd800 ≤ n && n ≤ 0xdbff

/-- The second half of a surrogate pair. -/
def isLowSurrogate (n : Nat) : Bool := 0xdc00 ≤ n && n ≤ 0xdfff

/-- The code point that a surrogate pair stands for. -/
def pairedSurrogates (high low : Nat) : CodePoint :=
  .ofNat (0x10000 + (high - 0xd800) * 0x400 + (low - 0xdc00))

/-- The text of 16-bit units; surrogates that form no pair stay as they are. -/
def ofUnits16 : List Nat → Text
  | [] => []
  | [u] => [.ofNat u]
  | u :: v :: us =>
    if isHighSurrogate u && isLowSurrogate v then pairedSurrogates u v :: ofUnits16 us
    else .ofNat u :: ofUnits16 (v :: us)

/-- The text of 32-bit units, if all are code points. -/
def ofUnits32? (us : List Nat) : Option Text :=
  us.mapM fun n => if h : n < 0x110000 then some ⟨n, h⟩ else none

/-- The text of octets in the encoding. -/
def decode? : Encoding → Octets → Option Text
  | .utf8, bs => Utf8.decode? bs
  | .utf16 big, bs => (units16? big bs).map ofUnits16
  | .utf32 big, bs => (units32? big bs).bind ofUnits32?

end Encoding

end CakeMonitor
