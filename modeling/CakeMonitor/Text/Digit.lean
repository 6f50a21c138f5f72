import CakeMonitor.Text.CodePoint
/-!
# Digits

Digits of every script. The decimal ones have a value and make up numbers; the others (superscripts,
circled digits and such) look like digits to a report reader and still are no part of a number. `parse_uint`
and `parse_bytes` test their tokens by `isDigit` and then read them, which fails on the others.

* `CodePoint.decimal?`: the value of a decimal digit.
* `CodePoint.isDigit`: decimal digits and the other digit symbols.
-/

namespace CakeMonitor.CodePoint

/-- The zero of each script; its digits follow it in order. -/
def scriptZeros : List Nat :=
  [0x30, 0x660, 0x6f0, 0x7c0, 0x966, 0x9e6, 0xa66, 0xae6, 0xb66, 0xbe6, 0xc66, 0xce6, 0xd66, 0xde6,
   0xe50, 0xed0, 0xf20, 0x1040, 0x1090, 0x17e0, 0x1810, 0x1946, 0x19d0, 0x1a80, 0x1a90, 0x1b50,
   0x1bb0, 0x1c40, 0x1c50, 0xa620, 0xa8d0, 0xa900, 0xa9d0, 0xa9f0, 0xaa50, 0xabf0, 0xff10, 0x104a0,
   0x10d30, 0x11066, 0x110f0, 0x11136, 0x111d0, 0x112f0, 0x11450, 0x114d0, 0x11650, 0x116c0,
   0x11730, 0x118e0, 0x11950, 0x11c50, 0x11d50, 0x11da0, 0x16a60, 0x16ac0, 0x16b50, 0x1d7ce,
   0x1d7d8, 0x1d7e2, 0x1d7ec, 0x1d7f6, 0x1e140, 0x1e2f0, 0x1e950, 0x1fbf0]

/-- The digits that have no decimal value. -/
def digitSymbols : Table :=
  [(0xb2, 0xb3), (0xb9, 0xb9), (0x1369, 0x1371), (0x19da, 0x19da), (0x2070, 0x2070),
   (0x2074, 0x2079), (0x2080, 0x2089), (0x2460, 0x2468), (0x2474, 0x247c), (0x2488, 0x2490),
   (0x24ea, 0x24ea), (0x24f5, 0x24fd), (0x24ff, 0x24ff), (0x2776, 0x277e), (0x2780, 0x2788),
   (0x278a, 0x2792), (0x10a40, 0x10a43), (0x10e60, 0x10e68), (0x11052, 0x1105a), (0x1f100, 0x1f10a)]

/-- The value of a decimal digit of any script. -/
def decimal? (c : CodePoint) : Option Nat :=
  (scriptZeros.find? fun z => z ≤ c.val && c.val ≤ z + 9).map (c.val - ·)

/-- Whether the code point is a digit, decimal or not. -/
def isDigit (c : CodePoint) : Bool := c.decimal?.isSome || c.isIn digitSymbols

theorem decimal?_le {c : CodePoint} {d : Nat} (h : c.decimal? = some d) : d ≤ 9 := by
  simp only [decimal?, Option.map_eq_some_iff] at h
  obtain ⟨z, hz, rfl⟩ := h
  have := List.find?_some hz
  simp only [Bool.and_eq_true, decide_eq_true_eq] at this
  omega

theorem isDigit_of_decimal? {c : CodePoint} {d : Nat} (h : c.decimal? = some d) :
    c.isDigit = true := by simp [isDigit, h]

/-- The ten digits of ASCII have their usual values. -/
theorem decimal?_ascii : ∀ d < 10, decimal? (ofNat (0x30 + d)) = some d := by decide

end CakeMonitor.CodePoint
