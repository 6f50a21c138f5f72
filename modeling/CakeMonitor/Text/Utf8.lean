import CakeMonitor.Text.CodePoint
/-!
# UTF-8

Octets read as UTF-8, code point by code point. A malformed part is as long as it can be while it
still begins some well-formed sequence, and counts once. `parse_blocks` and the executor decode the output
of the program with U+FFFD for such parts, so that no output is refused.

* `Utf8.scan`: the code points, with `none` for each malformed part.
* `Utf8.decodeLossy`: every malformed part becomes U+FFFD.
* `Utf8.decode?`: refuses malformed parts; encoded surrogates pass.
* `Utf8.encode`: the octets of a text.
-/

namespace CakeMonitor

/-- Octets, as they come from a program or a file. -/
abbrev Octets := List UInt8

namespace Utf8

/-- A sequence begun: the bits read so far, and the ranges of the octets to come. -/
structure Pending where
  bits : Nat
  next : Nat × Nat
  later : List (Nat × Nat)

/-- What a first octet begins. -/
inductive Lead where
  | single (n : Nat)
  | multi (p : Pending)
  | malformed

/-- The range of the octets that continue a sequence. -/
def tail : Nat × Nat := (0x80, 0xbf)

/-- The second octet is narrowed where a longer form or a code point beyond the last would begin,
and, unless `surrogates` is set, where a surrogate would. -/
def lead (surrogates : Bool) (b : Nat) : Lead :=
  if b < 0x80 then .single b
  else if b < 0xc2 then .malformed
  else if b < 0xe0 then .multi ⟨b - 0xc0, tail, []⟩
  else if b = 0xe0 then .multi ⟨0, (0xa0, 0xbf), [tail]⟩
  else if b = 0xed then .multi ⟨0xd, (0x80, if surrogates then 0xbf else 0x9f), [tail]⟩
  else if b < 0xf0 then .multi ⟨b - 0xe0, tail, [tail]⟩
  else if b = 0xf0 then .multi ⟨0, (0x90, 0xbf), [tail, tail]⟩
  else if b < 0xf4 then .multi ⟨b - 0xf0, tail, [tail, tail]⟩
  else if b = 0xf4 then .multi ⟨4, (0x80, 0x8f), [tail, tail]⟩
  else .malformed

/-- Read an octet that begins something: what is complete, and what stays pending. -/
def first (surrogates : Bool) (b : Nat) : List (Option CodePoint) × Option Pending :=
  match lead surrogates b with
  | .single n => ([some (.ofNat n)], none)
  | .multi p => ([], some p)
  | .malformed => ([none], none)

/-- Read one octet. An octet that does not continue what is pending ends a malformed part and
begins anew. -/
def step (surrogates : Bool) (b : Nat) : Option Pending → List (Option CodePoint) × Option Pending
  | none => first surrogates b
  | some p =>
    if p.next.1 ≤ b ∧ b ≤ p.next.2 then
      let bits := p.bits * 64 + (b - 0x80)
      match p.later with
      | [] => ([some (.ofNat bits)], none)
      | r :: rs => ([], some ⟨bits, r, rs⟩)
    else
      let (out, pending) := first surrogates b
      (none :: out, pending)

/-- The code points of the octets that follow what is pending. -/
def scanFrom (surrogates : Bool) : Option Pending → Octets → List (Option CodePoint)
  | none, [] => []
  | some _, [] => [none]
  | pending, b :: bs =>
    let (out, pending) := step surrogates b.toNat pending
    out ++ scanFrom surrogates pending bs

/-- The code points of the octets, with `none` for each malformed part. -/
def scan (surrogates : Bool) (bs : Octets) : List (Option CodePoint) := scanFrom surrogates none bs

/-- The text of the octets, with U+FFFD for each malformed part. -/
def decodeLossy (bs : Octets) : Text :=
  (scan false bs).map fun c => c.getD .replacement

/-- The text of well-formed octets, where a surrogate may be encoded like any other code point. -/
def decode? (bs : Octets) : Option Text := (scan true bs).mapM id

/-- The octets of a code point. -/
def encodePoint (c : CodePoint) : Octets :=
  let n := c.val
  let continued (place : Nat) : UInt8 := (0x80 + n / place % 64).toUInt8
  if n < 0x80 then [n.toUInt8]
  else if n < 0x800 then [(0xc0 + n / 64).toUInt8, continued 1]
  else if n < 0x10000 then [(0xe0 + n / 4096).toUInt8, continued 64, continued 1]
  else [(0xf0 + n / 262144).toUInt8, continued 4096, continued 64, continued 1]

/-- The octets of a text. -/
def encode (t : Text) : Octets := t.flatMap encodePoint

end Utf8

end CakeMonitor
