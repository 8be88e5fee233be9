/-
**Upper and lower case.**

Most letters with case map to one letter at a fixed distance, and runs of neighbours share the
distance; those are rows of a table, most of them good for both ways.  Some map to several
characters, and the capital sigma has two small forms, of which the one for the end of a word is
chosen by what stands around it.

Main definitions:

* `Text.upper`, `Text.lower` — text in capitals and in small letters;
* `Text.endsWord` — whether a capital sigma stands at the end of a word.
-/

import TriggerEngine.Text.Ranges

set_option autoImplicit false

namespace TriggerEngine.Text

/-- A run of letters, each a number of code points behind the one before, that map to the code point
at a fixed distance. -/
structure CaseRow where
  /-- First code point of the run. -/
  first : Nat
  /-- How many letters the run has. -/
  count : Nat
  /-- Distance of neighbours in the run. -/
  step : Nat
  /-- Distance of a letter to its image. -/
  shift : Int

namespace CaseRow

/-- Neighbouring letters, by the first, their number and the distance to the image. -/
def run : Nat × Nat × Int → CaseRow
  | (first, count, shift) => ⟨first, count, 1, shift⟩

/-- Letters that each lie behind their image, by the first and their number. -/
def behind : Nat × Nat → CaseRow
  | (first, count) => ⟨first, count, 2, -1⟩

/-- The way back. -/
def back (row : CaseRow) : CaseRow :=
  ⟨(row.first + row.shift).toNat, row.count, row.step, -row.shift⟩

/-- Whether a letter is in the run. -/
def holds (row : CaseRow) (n : Nat) : Bool :=
  row.first ≤ n && n < row.first + row.count * row.step && (n - row.first) % row.step == 0

end CaseRow

/-- Small letters that each lie right behind their capital. -/
def behindCapital : List CaseRow := [
  (0x101, 24), (0x133, 3), (0x13a, 8), (0x14b, 23), (0x17a, 3), (0x183, 2), (0x188, 1), (0x18c, 1),
  (0x192, 1), (0x199, 1), (0x1a1, 3), (0x1a8, 1), (0x1ad, 1), (0x1b0, 1), (0x1b4, 2), (0x1b9, 1),
  (0x1bd, 1), (0x1ce, 8), (0x1df, 9), (0x1f5, 1), (0x1f9, 20), (0x223, 9), (0x23c, 1), (0x242, 1),
  (0x247, 5), (0x371, 2), (0x377, 1), (0x3d9, 12), (0x3f8, 1), (0x3fb, 1), (0x461, 17), (0x48b, 27),
  (0x4c2, 7), (0x4d1, 48), (0x1e01, 75), (0x1ea1, 48), (0x2184, 1), (0x2c61, 1), (0x2c68, 3),
  (0x2c73, 1), (0x2c76, 1), (0x2c81, 50), (0x2cec, 2), (0x2cf3, 1), (0xa641, 23), (0xa681, 14),
  (0xa723, 7), (0xa733, 31), (0xa77a, 2), (0xa77f, 5), (0xa78c, 1), (0xa791, 2), (0xa797, 10),
  (0xa7b5, 8), (0xa7c8, 2), (0xa7d1, 1), (0xa7d7, 2), (0xa7f6, 1)].map CaseRow.behind

/-- Small letters that are the small form of their capital. -/
def paired : List CaseRow := behindCapital ++ [
  (0x61, 26, -32), (0xe0, 23, -32), (0xf8, 7, -32), (0xff, 1, 121), (0x180, 1, 195), (0x195, 1, 97),
  (0x19a, 1, 163), (0x19e, 1, 130), (0x1bf, 1, 56), (0x1c6, 1, -2), (0x1c9, 1, -2), (0x1cc, 1, -2),
  (0x1dd, 1, -79), (0x1f3, 1, -2), (0x23f, 2, 10815), (0x250, 1, 10783), (0x251, 1, 10780),
  (0x252, 1, 10782), (0x253, 1, -210), (0x254, 1, -206), (0x256, 2, -205), (0x259, 1, -202),
  (0x25b, 1, -203), (0x25c, 1, 42319), (0x260, 1, -205), (0x261, 1, 42315), (0x263, 1, -207),
  (0x265, 1, 42280), (0x266, 1, 42308), (0x268, 1, -209), (0x269, 1, -211), (0x26a, 1, 42308),
  (0x26b, 1, 10743), (0x26c, 1, 42305), (0x26f, 1, -211), (0x271, 1, 10749), (0x272, 1, -213),
  (0x275, 1, -214), (0x27d, 1, 10727), (0x280, 1, -218), (0x282, 1, 42307), (0x283, 1, -218),
  (0x287, 1, 42282), (0x288, 1, -218), (0x289, 1, -69), (0x28a, 2, -217), (0x28c, 1, -71),
  (0x292, 1, -219), (0x29d, 1, 42261), (0x29e, 1, 42258), (0x37b, 3, 130), (0x3ac, 1, -38),
  (0x3ad, 3, -37), (0x3b1, 17, -32), (0x3c3, 9, -32), (0x3cc, 1, -64), (0x3cd, 2, -63),
  (0x3d7, 1, -8), (0x3f2, 1, 7), (0x3f3, 1, -116), (0x430, 32, -32), (0x450, 16, -80),
  (0x4cf, 1, -15), (0x561, 38, -48), (0x10d0, 43, 3008), (0x10fd, 3, 3008), (0x13f8, 6, -8),
  (0x1d79, 1, 35332), (0x1d7d, 1, 3814), (0x1d8e, 1, 35384), (0x1f00, 8, 8), (0x1f10, 6, 8),
  (0x1f20, 8, 8), (0x1f30, 8, 8), (0x1f40, 6, 8), (0x1f51, 1, 8), (0x1f53, 1, 8), (0x1f55, 1, 8),
  (0x1f57, 1, 8), (0x1f60, 8, 8), (0x1f70, 2, 74), (0x1f72, 4, 86), (0x1f76, 2, 100),
  (0x1f78, 2, 128), (0x1f7a, 2, 112), (0x1f7c, 2, 126), (0x1fb0, 2, 8), (0x1fd0, 2, 8),
  (0x1fe0, 2, 8), (0x1fe5, 1, 7), (0x214e, 1, -28), (0x2170, 16, -16), (0x24d0, 26, -26),
  (0x2c30, 48, -48), (0x2c65, 1, -10795), (0x2c66, 1, -10792), (0x2d00, 38, -7264),
  (0x2d27, 1, -7264), (0x2d2d, 1, -7264), (0xa794, 1, 48), (0xab53, 1, -928), (0xab70, 80, -38864),
  (0xff41, 26, -32), (0x10428, 40, -40), (0x104d8, 36, -40), (0x10597, 11, -39), (0x105a3, 15, -39),
  (0x105b3, 7, -39), (0x105bb, 2, -39), (0x10cc0, 51, -64), (0x118c0, 32, -32), (0x16e60, 32, -32),
  (0x1e922, 34, -34)].map CaseRow.run

/-- Letters whose capital is one character. -/
def upperRows : List CaseRow := paired ++ [
  (0xb5, 1, 743), (0x131, 1, -232), (0x17f, 1, -300), (0x1c5, 1, -1), (0x1c8, 1, -1),
  (0x1cb, 1, -1), (0x1f2, 1, -1), (0x345, 1, 84), (0x3c2, 1, -31), (0x3d0, 1, -62), (0x3d1, 1, -57),
  (0x3d5, 1, -47), (0x3d6, 1, -54), (0x3f0, 1, -86), (0x3f1, 1, -80), (0x3f5, 1, -96),
  (0x1c80, 1, -6254), (0x1c81, 1, -6253), (0x1c82, 1, -6244), (0x1c83, 2, -6242),
  (0x1c85, 1, -6243), (0x1c86, 1, -6236), (0x1c87, 1, -6181), (0x1c88, 1, 35266), (0x1e9b, 1, -59),
  (0x1fbe, 1, -7205)].map CaseRow.run

/-- Letters whose small form is one character. -/
def lowerRows : List CaseRow := paired.map CaseRow.back ++ [
  (0x1c5, 1, 1), (0x1c8, 1, 1), (0x1cb, 1, 1), (0x1f2, 1, 1), (0x3f4, 1, -60), (0x1e9e, 1, -7615),
  (0x1f88, 8, -8), (0x1f98, 8, -8), (0x1fa8, 8, -8), (0x1fbc, 1, -9), (0x1fcc, 1, -9),
  (0x1ffc, 1, -9), (0x2126, 1, -7517), (0x212a, 1, -8383), (0x212b, 1, -8262)].map CaseRow.run

/-- Letters over or before a small iota, which their capital form has as a letter of its own. -/
def withIota : List CaseRow := [
  (0x1f80, 8, -120), (0x1f88, 8, -128), (0x1f90, 8, -104), (0x1f98, 8, -112), (0x1fa0, 8, -56),
  (0x1fa8, 8, -64), (0x1fb2, 1, 8), (0x1fb3, 1, -7202), (0x1fb4, 1, -7214), (0x1fbc, 1, -7211),
  (0x1fc2, 1, 8), (0x1fc3, 1, -7212), (0x1fc4, 1, -7227), (0x1fcc, 1, -7221), (0x1ff2, 1, 8),
  (0x1ff3, 1, -7242), (0x1ff4, 1, -7269), (0x1ffc, 1, -7251)].map CaseRow.run

/-- Characters whose capital form is several characters. -/
def upperWide : List (Nat × List Nat) := [
  (0xdf, [0x53, 0x53]), (0x149, [0x2bc, 0x4e]), (0x1f0, [0x4a, 0x30c]),
  (0x390, [0x399, 0x308, 0x301]), (0x3b0, [0x3a5, 0x308, 0x301]), (0x587, [0x535, 0x552]),
  (0x1e96, [0x48, 0x331]), (0x1e97, [0x54, 0x308]), (0x1e98, [0x57, 0x30a]),
  (0x1e99, [0x59, 0x30a]), (0x1e9a, [0x41, 0x2be]), (0x1f50, [0x3a5, 0x313]),
  (0x1f52, [0x3a5, 0x313, 0x300]), (0x1f54, [0x3a5, 0x313, 0x301]), (0x1f56, [0x3a5, 0x313, 0x342]),
  (0x1fb6, [0x391, 0x342]), (0x1fb7, [0x391, 0x342, 0x399]), (0x1fc6, [0x397, 0x342]),
  (0x1fc7, [0x397, 0x342, 0x399]), (0x1fd2, [0x399, 0x308, 0x300]), (0x1fd3, [0x399, 0x308, 0x301]),
  (0x1fd6, [0x399, 0x342]), (0x1fd7, [0x399, 0x308, 0x342]), (0x1fe2, [0x3a5, 0x308, 0x300]),
  (0x1fe3, [0x3a5, 0x308, 0x301]), (0x1fe4, [0x3a1, 0x313]), (0x1fe6, [0x3a5, 0x342]),
  (0x1fe7, [0x3a5, 0x308, 0x342]), (0x1ff6, [0x3a9, 0x342]), (0x1ff7, [0x3a9, 0x342, 0x399]),
  (0xfb00, [0x46, 0x46]), (0xfb01, [0x46, 0x49]), (0xfb02, [0x46, 0x4c]),
  (0xfb03, [0x46, 0x46, 0x49]), (0xfb04, [0x46, 0x46, 0x4c]), (0xfb05, [0x53, 0x54]),
  (0xfb06, [0x53, 0x54]), (0xfb13, [0x544, 0x546]), (0xfb14, [0x544, 0x535]),
  (0xfb15, [0x544, 0x53b]), (0xfb16, [0x54e, 0x546]), (0xfb17, [0x544, 0x53d])]

/-- Characters whose small form is several characters. -/
def lowerWide : List (Nat × List Nat) := [
  (0x130, [0x69, 0x307])]

/-- Characters with case. -/
def casedTable : List Nat := [
  65, 26, 6, 26, 47, 1, 10, 1, 4, 1, 5, 23, 1, 31, 1, 195, 1, 4, 4, 208, 1, 27, 192, 4, 2, 2, 3, 3,
  1, 1, 6, 1, 1, 3, 1, 1, 1, 20, 1, 83, 1, 139, 8, 166, 1, 38, 9, 41, 2839, 38, 1, 1, 5, 1, 2, 43,
  2, 3, 672, 86, 2, 6, 2178, 9, 7, 43, 2, 3, 64, 44, 63, 13, 1, 34, 101, 278, 2, 6, 2, 38, 2, 6, 2,
  8, 1, 1, 1, 1, 1, 1, 1, 31, 2, 53, 1, 7, 1, 1, 3, 3, 1, 7, 3, 4, 2, 6, 4, 13, 5, 3, 1, 7, 261, 1,
  4, 1, 2, 10, 1, 1, 3, 5, 6, 1, 1, 1, 1, 1, 1, 4, 1, 6, 4, 1, 2, 4, 5, 5, 4, 1, 17, 32, 3, 2, 817,
  52, 1814, 124, 2, 103, 6, 4, 3, 2, 12, 38, 1, 1, 5, 1, 30994, 46, 18, 28, 134, 78, 1, 23, 3, 4, 1,
  59, 5, 2, 1, 1, 1, 5, 27, 2, 3, 1, 821, 43, 5, 9, 7, 80, 20288, 7, 12, 5, 1033, 26, 6, 26, 1189,
  80, 96, 36, 4, 36, 116, 11, 1, 15, 1, 7, 1, 2, 1, 11, 1, 15, 1, 7, 1, 2, 1731, 51, 13, 51, 2989,
  64, 21856, 64, 25984, 85, 1, 71, 1, 2, 2, 1, 2, 2, 2, 4, 1, 12, 1, 1, 1, 7, 1, 65, 1, 4, 2, 8, 1,
  7, 1, 28, 1, 4, 1, 5, 1, 1, 3, 7, 1, 340, 2, 25, 1, 25, 1, 31, 1, 25, 1, 31, 1, 25, 1, 31, 1, 25,
  1, 31, 1, 25, 1, 8, 1844, 10, 1, 20, 2529, 68, 2028, 26, 6, 26, 6, 26]

/-- Characters that the context of a capital sigma looks through. -/
def passedTable : List Nat := [
  39, 1, 6, 1, 11, 1, 35, 1, 1, 1, 71, 1, 4, 1, 1, 1, 4, 1, 2, 2, 503, 192, 4, 2, 4, 1, 9, 2, 1, 1,
  251, 7, 207, 1, 5, 1, 49, 45, 1, 1, 1, 2, 1, 2, 1, 1, 44, 1, 11, 6, 10, 11, 1, 1, 35, 1, 10, 21,
  16, 1, 101, 8, 1, 10, 1, 4, 33, 1, 1, 1, 30, 27, 91, 11, 58, 11, 4, 1, 2, 1, 24, 24, 43, 3, 44, 1,
  7, 2, 6, 8, 41, 58, 55, 1, 1, 1, 4, 8, 4, 1, 3, 7, 10, 2, 13, 1, 15, 1, 58, 1, 4, 4, 8, 1, 20, 2,
  26, 1, 2, 2, 57, 1, 4, 2, 4, 2, 2, 3, 3, 1, 30, 2, 3, 1, 11, 2, 57, 1, 4, 5, 1, 2, 4, 1, 20, 2,
  22, 6, 1, 1, 58, 1, 2, 1, 1, 4, 8, 1, 7, 2, 11, 2, 30, 1, 61, 1, 12, 1, 50, 1, 3, 1, 55, 1, 1, 3,
  5, 3, 1, 4, 7, 2, 11, 2, 29, 1, 58, 1, 2, 1, 6, 1, 5, 2, 20, 2, 28, 2, 57, 2, 4, 4, 8, 1, 20, 2,
  29, 1, 72, 1, 7, 3, 1, 1, 90, 1, 2, 7, 11, 9, 98, 1, 2, 9, 9, 1, 1, 6, 74, 2, 27, 1, 1, 1, 1, 1,
  55, 14, 1, 5, 1, 2, 5, 11, 1, 36, 9, 1, 102, 4, 1, 6, 1, 2, 2, 2, 25, 2, 4, 3, 16, 4, 13, 1, 2, 2,
  6, 1, 15, 1, 94, 1, 608, 3, 946, 3, 29, 2, 30, 2, 30, 2, 64, 2, 1, 7, 8, 1, 2, 11, 3, 1, 5, 1, 45,
  5, 51, 1, 65, 2, 34, 1, 118, 3, 4, 2, 9, 1, 6, 3, 219, 2, 2, 1, 58, 1, 1, 7, 1, 1, 1, 1, 2, 8, 6,
  10, 2, 1, 39, 1, 8, 31, 49, 4, 48, 1, 1, 5, 1, 1, 5, 1, 40, 9, 12, 2, 32, 4, 2, 2, 1, 3, 56, 1, 1,
  2, 3, 1, 1, 3, 58, 8, 2, 2, 64, 6, 82, 3, 1, 13, 1, 7, 4, 1, 6, 1, 3, 2, 50, 63, 13, 1, 34, 101,
  445, 1, 1, 3, 11, 3, 13, 3, 13, 3, 13, 2, 12, 5, 8, 2, 10, 1, 2, 1, 2, 5, 49, 5, 1, 10, 1, 1, 13,
  1, 16, 13, 51, 33, 2955, 2, 113, 3, 125, 1, 15, 1, 96, 32, 47, 1, 469, 1, 36, 4, 3, 5, 5, 1, 93,
  6, 93, 3, 28438, 1, 1250, 6, 270, 1, 98, 4, 1, 10, 1, 1, 28, 4, 80, 2, 14, 34, 78, 1, 23, 3, 103,
  3, 3, 2, 8, 1, 3, 1, 4, 1, 25, 2, 5, 1, 151, 2, 26, 18, 13, 1, 38, 8, 25, 11, 46, 3, 48, 1, 2, 4,
  2, 2, 17, 1, 21, 2, 66, 6, 2, 2, 2, 2, 12, 1, 8, 1, 35, 1, 11, 1, 51, 1, 1, 3, 2, 2, 5, 2, 1, 1,
  27, 1, 14, 2, 5, 2, 1, 1, 100, 5, 9, 3, 121, 1, 2, 1, 4, 1, 20272, 1, 147, 17, 573, 16, 3, 1, 12,
  16, 34, 1, 2, 1, 169, 1, 7, 1, 6, 1, 11, 1, 35, 1, 1, 1, 47, 1, 45, 2, 67, 1, 21, 3, 513, 1, 226,
  1, 149, 5, 1029, 6, 1, 42, 1, 9, 582, 3, 1, 2, 5, 4, 40, 3, 4, 1, 165, 2, 573, 4, 387, 2, 153, 11,
  49, 4, 123, 1, 54, 15, 41, 1, 2, 2, 10, 3, 49, 4, 2, 2, 2, 1, 4, 1, 10, 1, 50, 3, 36, 5, 1, 8, 62,
  1, 12, 2, 52, 9, 10, 4, 2, 1, 95, 3, 2, 1, 1, 2, 6, 1, 160, 1, 3, 8, 21, 2, 57, 2, 3, 1, 37, 7, 3,
  5, 195, 8, 2, 3, 1, 1, 23, 1, 84, 6, 1, 1, 4, 2, 1, 2, 238, 4, 6, 2, 1, 2, 27, 2, 85, 8, 2, 1, 1,
  2, 106, 1, 1, 1, 2, 6, 1, 1, 101, 3, 2, 4, 1, 5, 259, 9, 1, 2, 256, 2, 1, 1, 4, 1, 144, 4, 2, 2,
  4, 1, 32, 10, 40, 6, 2, 4, 8, 1, 9, 6, 2, 3, 46, 13, 1, 2, 406, 7, 1, 6, 1, 1, 82, 22, 2, 7, 1, 2,
  1, 2, 122, 6, 3, 1, 1, 2, 1, 7, 1, 1, 72, 2, 3, 1, 1, 1, 347, 2, 5435, 9, 14007, 5, 59, 7, 9, 4,
  1035, 1, 63, 17, 64, 2, 1, 2, 16395, 4, 1, 7, 1, 2, 3230, 2, 1, 4, 4700, 46, 2, 23, 544, 3, 9, 16,
  2, 7, 30, 4, 148, 3, 1979, 55, 4, 50, 8, 1, 14, 1, 22, 5, 1, 15, 1360, 7, 1, 17, 2, 7, 1, 2, 1, 5,
  261, 14, 368, 1, 61, 4, 1504, 7, 109, 8, 2735, 5, 789505, 1, 30, 96, 128, 240]

/-- The image of a code point under a table of rows. -/
def shift? (rows : List CaseRow) (n : Nat) : Option Nat :=
  (rows.find? fun row => row.holds n).map fun row => ((n : Int) + row.shift).toNat

/-- The image of a character: several characters if the second table lists it, else one. -/
def mapCase (rows : List CaseRow) (wide : List (Nat × List Nat)) (c : Char) : List Char :=
  match wide.lookup c.toNat with
  | some image => image.map Char.ofNat
  | none => [Char.ofNat ((shift? rows c.toNat).getD c.toNat)]

/-- Capital form of one character. -/
def upperChar (c : Char) : List Char :=
  if c.toNat < 128 then [c.toUpper]
  else
    match shift? withIota c.toNat with
    | some n => [Char.ofNat n, Char.ofNat 0x399]
    | none => mapCase upperRows upperWide c

/-- Small form of one character, a capital sigma apart. -/
def lowerChar (c : Char) : List Char :=
  if c.toNat < 128 then [c.toLower] else mapCase lowerRows lowerWide c

/-- Whether the first character that is not looked through has case. -/
def facesCased (cs : List Char) : Bool :=
  match cs.dropWhile fun c => inRanges passedTable c.toNat with
  | c :: _ => inRanges casedTable c.toNat
  | [] => false

/-- Whether a capital sigma between `before` (in reverse) and `after` ends a word. -/
def endsWord (before after : List Char) : Bool :=
  facesCased before && !facesCased after

/-- Text in capitals. -/
def upper (cs : List Char) : List Char :=
  cs.flatMap upperChar

/-- Text in small letters, after the characters `before` (in reverse). -/
def lowerFrom (before : List Char) : List Char → List Char
  | [] => []
  | c :: cs =>
    (if c.toNat == 0x3a3 then [Char.ofNat (if endsWord before cs then 0x3c2 else 0x3c3)]
      else lowerChar c) ++ lowerFrom (c :: before) cs

/-- Text in small letters. -/
def lower (cs : List Char) : List Char :=
  lowerFrom [] cs

end TriggerEngine.Text
