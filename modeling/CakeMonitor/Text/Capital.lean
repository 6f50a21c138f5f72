import CakeMonitor.Text.CodePoint
/-!
# Capitals

The full upper-case mapping of Unicode, code point by code point, by which `run` takes the level of its
log from the settings.

* `CodePoint.capitals`: the capitals of a code point; of a few letters there are several.
* `Text.toUpper`: a text in capitals.
-/

namespace CakeMonitor

namespace CodePoint

/-- Runs of small letters, each with the capital of its first; the others follow in step. -/
def smallRuns : List (Nat × Nat × Nat) :=
  [(0x61, 0x7a, 0x41), (0xb5, 0xb5, 0x39c), (0xe0, 0xf6, 0xc0), (0xf8, 0xfe, 0xd8),
   (0xff, 0xff, 0x178), (0x131, 0x131, 0x49), (0x17f, 0x17f, 0x53), (0x180, 0x180, 0x243),
   (0x188, 0x188, 0x187), (0x18c, 0x18c, 0x18b), (0x192, 0x192, 0x191), (0x195, 0x195, 0x1f6),
   (0x199, 0x199, 0x198), (0x19a, 0x19a, 0x23d), (0x19e, 0x19e, 0x220), (0x1a8, 0x1a8, 0x1a7),
   (0x1ad, 0x1ad, 0x1ac), (0x1b0, 0x1b0, 0x1af), (0x1b9, 0x1b9, 0x1b8), (0x1bd, 0x1bd, 0x1bc),
   (0x1bf, 0x1bf, 0x1f7), (0x1c5, 0x1c5, 0x1c4), (0x1c6, 0x1c6, 0x1c4), (0x1c8, 0x1c8, 0x1c7),
   (0x1c9, 0x1c9, 0x1c7), (0x1cb, 0x1cb, 0x1ca), (0x1cc, 0x1cc, 0x1ca), (0x1dd, 0x1dd, 0x18e),
   (0x1f2, 0x1f2, 0x1f1), (0x1f3, 0x1f3, 0x1f1), (0x1f5, 0x1f5, 0x1f4), (0x23c, 0x23c, 0x23b),
   (0x23f, 0x240, 0x2c7e), (0x242, 0x242, 0x241), (0x250, 0x250, 0x2c6f), (0x251, 0x251, 0x2c6d),
   (0x252, 0x252, 0x2c70), (0x253, 0x253, 0x181), (0x254, 0x254, 0x186), (0x256, 0x257, 0x189),
   (0x259, 0x259, 0x18f), (0x25b, 0x25b, 0x190), (0x25c, 0x25c, 0xa7ab), (0x260, 0x260, 0x193),
   (0x261, 0x261, 0xa7ac), (0x263, 0x263, 0x194), (0x265, 0x265, 0xa78d), (0x266, 0x266, 0xa7aa),
   (0x268, 0x268, 0x197), (0x269, 0x269, 0x196), (0x26a, 0x26a, 0xa7ae), (0x26b, 0x26b, 0x2c62),
   (0x26c, 0x26c, 0xa7ad), (0x26f, 0x26f, 0x19c), (0x271, 0x271, 0x2c6e), (0x272, 0x272, 0x19d),
   (0x275, 0x275, 0x19f), (0x27d, 0x27d, 0x2c64), (0x280, 0x280, 0x1a6), (0x282, 0x282, 0xa7c5),
   (0x283, 0x283, 0x1a9), (0x287, 0x287, 0xa7b1), (0x288, 0x288, 0x1ae), (0x289, 0x289, 0x244),
   (0x28a, 0x28b, 0x1b1), (0x28c, 0x28c, 0x245), (0x292, 0x292, 0x1b7), (0x29d, 0x29d, 0xa7b2),
   (0x29e, 0x29e, 0xa7b0), (0x345, 0x345, 0x399), (0x377, 0x377, 0x376), (0x37b, 0x37d, 0x3fd),
   (0x3ac, 0x3ac, 0x386), (0x3ad, 0x3af, 0x388), (0x3b1, 0x3c1, 0x391), (0x3c2, 0x3c2, 0x3a3),
   (0x3c3, 0x3cb, 0x3a3), (0x3cc, 0x3cc, 0x38c), (0x3cd, 0x3ce, 0x38e), (0x3d0, 0x3d0, 0x392),
   (0x3d1, 0x3d1, 0x398), (0x3d5, 0x3d5, 0x3a6), (0x3d6, 0x3d6, 0x3a0), (0x3d7, 0x3d7, 0x3cf),
   (0x3f0, 0x3f0, 0x39a), (0x3f1, 0x3f1, 0x3a1), (0x3f2, 0x3f2, 0x3f9), (0x3f3, 0x3f3, 0x37f),
   (0x3f5, 0x3f5, 0x395), (0x3f8, 0x3f8, 0x3f7), (0x3fb, 0x3fb, 0x3fa), (0x430, 0x44f, 0x410),
   (0x450, 0x45f, 0x400), (0x4cf, 0x4cf, 0x4c0), (0x561, 0x586, 0x531), (0x10d0, 0x10fa, 0x1c90),
   (0x10fd, 0x10ff, 0x1cbd), (0x13f8, 0x13fd, 0x13f0), (0x1c80, 0x1c80, 0x412),
   (0x1c81, 0x1c81, 0x414), (0x1c82, 0x1c82, 0x41e), (0x1c83, 0x1c84, 0x421),
   (0x1c85, 0x1c85, 0x422), (0x1c86, 0x1c86, 0x42a), (0x1c87, 0x1c87, 0x462),
   (0x1c88, 0x1c88, 0xa64a), (0x1d79, 0x1d79, 0xa77d), (0x1d7d, 0x1d7d, 0x2c63),
   (0x1d8e, 0x1d8e, 0xa7c6), (0x1e9b, 0x1e9b, 0x1e60), (0x1f00, 0x1f07, 0x1f08),
   (0x1f10, 0x1f15, 0x1f18), (0x1f20, 0x1f27, 0x1f28), (0x1f30, 0x1f37, 0x1f38),
   (0x1f40, 0x1f45, 0x1f48), (0x1f60, 0x1f67, 0x1f68), (0x1f70, 0x1f71, 0x1fba),
   (0x1f72, 0x1f75, 0x1fc8), (0x1f76, 0x1f77, 0x1fda), (0x1f78, 0x1f79, 0x1ff8),
   (0x1f7a, 0x1f7b, 0x1fea), (0x1f7c, 0x1f7d, 0x1ffa), (0x1fb0, 0x1fb1, 0x1fb8),
   (0x1fbe, 0x1fbe, 0x399), (0x1fd0, 0x1fd1, 0x1fd8), (0x1fe0, 0x1fe1, 0x1fe8),
   (0x1fe5, 0x1fe5, 0x1fec), (0x214e, 0x214e, 0x2132), (0x2170, 0x217f, 0x2160),
   (0x2184, 0x2184, 0x2183), (0x24d0, 0x24e9, 0x24b6), (0x2c30, 0x2c5f, 0x2c00),
   (0x2c61, 0x2c61, 0x2c60), (0x2c65, 0x2c65, 0x23a), (0x2c66, 0x2c66, 0x23e),
   (0x2c73, 0x2c73, 0x2c72), (0x2c76, 0x2c76, 0x2c75), (0x2cf3, 0x2cf3, 0x2cf2),
   (0x2d00, 0x2d25, 0x10a0), (0x2d27, 0x2d27, 0x10c7), (0x2d2d, 0x2d2d, 0x10cd),
   (0xa78c, 0xa78c, 0xa78b), (0xa794, 0xa794, 0xa7c4), (0xa7d1, 0xa7d1, 0xa7d0),
   (0xa7f6, 0xa7f6, 0xa7f5), (0xab53, 0xab53, 0xa7b3), (0xab70, 0xabbf, 0x13a0),
   (0xff41, 0xff5a, 0xff21), (0x10428, 0x1044f, 0x10400), (0x104d8, 0x104fb, 0x104b0),
   (0x10597, 0x105a1, 0x10570), (0x105a3, 0x105b1, 0x1057c), (0x105b3, 0x105b9, 0x1058c),
   (0x105bb, 0x105bc, 0x10594), (0x10cc0, 0x10cf2, 0x10c80), (0x118c0, 0x118df, 0x118a0),
   (0x16e60, 0x16e7f, 0x16e40), (0x1e922, 0x1e943, 0x1e900)]

/-- Runs in which every second code point is a small letter, from the first to the last, each with the
capital of its first. -/
def smallAlternating : List (Nat × Nat × Nat) :=
  [(0x101, 0x12f, 0x100), (0x133, 0x137, 0x132), (0x13a, 0x148, 0x139), (0x14b, 0x177, 0x14a),
   (0x17a, 0x17e, 0x179), (0x183, 0x185, 0x182), (0x1a1, 0x1a5, 0x1a0), (0x1b4, 0x1b6, 0x1b3),
   (0x1ce, 0x1dc, 0x1cd), (0x1df, 0x1ef, 0x1de), (0x1f9, 0x21f, 0x1f8), (0x223, 0x233, 0x222),
   (0x247, 0x24f, 0x246), (0x371, 0x373, 0x370), (0x3d9, 0x3ef, 0x3d8), (0x461, 0x481, 0x460),
   (0x48b, 0x4bf, 0x48a), (0x4c2, 0x4ce, 0x4c1), (0x4d1, 0x52f, 0x4d0), (0x1e01, 0x1e95, 0x1e00),
   (0x1ea1, 0x1eff, 0x1ea0), (0x1f51, 0x1f57, 0x1f59), (0x2c68, 0x2c6c, 0x2c67),
   (0x2c81, 0x2ce3, 0x2c80), (0x2cec, 0x2cee, 0x2ceb), (0xa641, 0xa66d, 0xa640),
   (0xa681, 0xa69b, 0xa680), (0xa723, 0xa72f, 0xa722), (0xa733, 0xa76f, 0xa732),
   (0xa77a, 0xa77c, 0xa779), (0xa77f, 0xa787, 0xa77e), (0xa791, 0xa793, 0xa790),
   (0xa797, 0xa7a9, 0xa796), (0xa7b5, 0xa7c3, 0xa7b4), (0xa7c8, 0xa7ca, 0xa7c7),
   (0xa7d7, 0xa7d9, 0xa7d6)]

/-- The letters with several capitals. -/
def severalCapitals : List (Nat × List Nat) :=
  [(0xdf, [0x53, 0x53]), (0x149, [0x2bc, 0x4e]), (0x1f0, [0x4a, 0x30c]),
   (0x390, [0x399, 0x308, 0x301]), (0x3b0, [0x3a5, 0x308, 0x301]), (0x587, [0x535, 0x552]),
   (0x1e96, [0x48, 0x331]), (0x1e97, [0x54, 0x308]), (0x1e98, [0x57, 0x30a]),
   (0x1e99, [0x59, 0x30a]), (0x1e9a, [0x41, 0x2be]), (0x1f50, [0x3a5, 0x313]),
   (0x1f52, [0x3a5, 0x313, 0x300]), (0x1f54, [0x3a5, 0x313, 0x301]),
   (0x1f56, [0x3a5, 0x313, 0x342]), (0x1f80, [0x1f08, 0x399]), (0x1f81, [0x1f09, 0x399]),
   (0x1f82, [0x1f0a, 0x399]), (0x1f83, [0x1f0b, 0x399]), (0x1f84, [0x1f0c, 0x399]),
   (0x1f85, [0x1f0d, 0x399]), (0x1f86, [0x1f0e, 0x399]), (0x1f87, [0x1f0f, 0x399]),
   (0x1f88, [0x1f08, 0x399]), (0x1f89, [0x1f09, 0x399]), (0x1f8a, [0x1f0a, 0x399]),
   (0x1f8b, [0x1f0b, 0x399]), (0x1f8c, [0x1f0c, 0x399]), (0x1f8d, [0x1f0d, 0x399]),
   (0x1f8e, [0x1f0e, 0x399]), (0x1f8f, [0x1f0f, 0x399]), (0x1f90, [0x1f28, 0x399]),
   (0x1f91, [0x1f29, 0x399]), (0x1f92, [0x1f2a, 0x399]), (0x1f93, [0x1f2b, 0x399]),
   (0x1f94, [0x1f2c, 0x399]), (0x1f95, [0x1f2d, 0x399]), (0x1f96, [0x1f2e, 0x399]),
   (0x1f97, [0x1f2f, 0x399]), (0x1f98, [0x1f28, 0x399]), (0x1f99, [0x1f29, 0x399]),
   (0x1f9a, [0x1f2a, 0x399]), (0x1f9b, [0x1f2b, 0x399]), (0x1f9c, [0x1f2c, 0x399]),
   (0x1f9d, [0x1f2d, 0x399]), (0x1f9e, [0x1f2e, 0x399]), (0x1f9f, [0x1f2f, 0x399]),
   (0x1fa0, [0x1f68, 0x399]), (0x1fa1, [0x1f69, 0x399]), (0x1fa2, [0x1f6a, 0x399]),
   (0x1fa3, [0x1f6b, 0x399]), (0x1fa4, [0x1f6c, 0x399]), (0x1fa5, [0x1f6d, 0x399]),
   (0x1fa6, [0x1f6e, 0x399]), (0x1fa7, [0x1f6f, 0x399]), (0x1fa8, [0x1f68, 0x399]),
   (0x1fa9, [0x1f69, 0x399]), (0x1faa, [0x1f6a, 0x399]), (0x1fab, [0x1f6b, 0x399]),
   (0x1fac, [0x1f6c, 0x399]), (0x1fad, [0x1f6d, 0x399]), (0x1fae, [0x1f6e, 0x399]),
   (0x1faf, [0x1f6f, 0x399]), (0x1fb2, [0x1fba, 0x399]), (0x1fb3, [0x391, 0x399]),
   (0x1fb4, [0x386, 0x399]), (0x1fb6, [0x391, 0x342]), (0x1fb7, [0x391, 0x342, 0x399]),
   (0x1fbc, [0x391, 0x399]), (0x1fc2, [0x1fca, 0x399]), (0x1fc3, [0x397, 0x399]),
   (0x1fc4, [0x389, 0x399]), (0x1fc6, [0x397, 0x342]), (0x1fc7, [0x397, 0x342, 0x399]),
   (0x1fcc, [0x397, 0x399]), (0x1fd2, [0x399, 0x308, 0x300]), (0x1fd3, [0x399, 0x308, 0x301]),
   (0x1fd6, [0x399, 0x342]), (0x1fd7, [0x399, 0x308, 0x342]), (0x1fe2, [0x3a5, 0x308, 0x300]),
   (0x1fe3, [0x3a5, 0x308, 0x301]), (0x1fe4, [0x3a1, 0x313]), (0x1fe6, [0x3a5, 0x342]),
   (0x1fe7, [0x3a5, 0x308, 0x342]), (0x1ff2, [0x1ffa, 0x399]), (0x1ff3, [0x3a9, 0x399]),
   (0x1ff4, [0x38f, 0x399]), (0x1ff6, [0x3a9, 0x342]), (0x1ff7, [0x3a9, 0x342, 0x399]),
   (0x1ffc, [0x3a9, 0x399]), (0xfb00, [0x46, 0x46]), (0xfb01, [0x46, 0x49]), (0xfb02, [0x46, 0x4c]),
   (0xfb03, [0x46, 0x46, 0x49]), (0xfb04, [0x46, 0x46, 0x4c]), (0xfb05, [0x53, 0x54]),
   (0xfb06, [0x53, 0x54]), (0xfb13, [0x544, 0x546]), (0xfb14, [0x544, 0x535]),
   (0xfb15, [0x544, 0x53b]), (0xfb16, [0x54e, 0x546]), (0xfb17, [0x544, 0x53d])]

/-- The capital of a code point that has exactly one. -/
def capital? (c : CodePoint) : Option Nat :=
  let run := smallRuns.find? fun r => r.1 ≤ c.val && c.val ≤ r.2.1
  let run := run.orElse fun _ =>
    smallAlternating.find? fun r => r.1 ≤ c.val && c.val ≤ r.2.1 && (c.val - r.1) % 2 == 0
  run.map fun r => r.2.2 + (c.val - r.1)

/-- The capitals of a code point; one without capital is its own. -/
def capitals (c : CodePoint) : List CodePoint :=
  match severalCapitals.find? fun s => s.1 = c.val with
  | some s => s.2.map .ofNat
  | none => [(c.capital?.map .ofNat).getD c]

/-- The small letters of ASCII have their usual capitals. -/
theorem capitals_ascii : ∀ n < 26, capitals (ofNat (0x61 + n)) = [ofNat (0x41 + n)] := by decide

end CodePoint

/-- The text in capitals. -/
def Text.toUpper (t : Text) : Text := t.flatMap CodePoint.capitals

end CakeMonitor
