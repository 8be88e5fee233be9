/-
**Digits.**

A number in a script may be written with the decimal digits of any writing system.  Each such
system has its ten digits in a row, from zero to nine, so the place in the row is the value.

Main definitions:

* `Text.digitValue` — the value of a decimal digit;
* `Text.isDecimal` — whether a character is one;
* `Text.isDigitLike` — decimal digits and the digits that stand in no decimal system, such as
  superscripts and circled digits.
-/

import TriggerEngine.Text.Ranges

set_option autoImplicit false

namespace TriggerEngine.Text

/-- The decimal digits beyond ASCII; a range is one or more rows of ten. -/
def decimalTable : List Nat := [
  1632, 10, 134, 10, 198, 10, 412, 10, 118, 10, 118, 10, 118, 10, 118, 10, 118, 10, 118, 10, 118,
  10, 118, 10, 118, 10, 96, 10, 118, 10, 70, 10, 278, 10, 70, 10, 1862, 10, 38, 10, 300, 10, 128,
  10, 166, 10, 6, 10, 182, 10, 86, 10, 134, 10, 6, 10, 35270, 10, 678, 10, 38, 10, 198, 10, 22, 10,
  86, 10, 406, 10, 21270, 10, 1414, 10, 2182, 10, 812, 10, 128, 10, 60, 10, 144, 10, 278, 10, 342,
  10, 118, 10, 374, 10, 102, 10, 102, 10, 422, 10, 102, 10, 758, 10, 246, 10, 70, 10, 19638, 10, 86,
  10, 134, 10, 27764, 50, 2368, 10, 422, 10, 1622, 10, 4758, 10]

/-- The digits that are not decimal. -/
def loneDigitTable : List Nat := [
  178, 2, 5, 1, 4783, 9, 1640, 1, 1685, 1, 3, 6, 6, 10, 982, 9, 11, 9, 11, 9, 89, 1, 10, 9, 1, 1,
  630, 9, 1, 9, 1, 9, 58029, 4, 1052, 9, 489, 9, 57509, 11]

/-- The value of a decimal digit, `none` for any other character. -/
def digitValue (c : Char) : Option Nat :=
  if c.toNat < 128 then
    if c.isDigit then some (c.toNat - 48) else none
  else (offset? decimalTable c.toNat).map (· % 10)

/-- Decimal digits of any writing system. -/
def isDecimal (c : Char) : Bool :=
  (digitValue c).isSome

/-- Decimal digits and digits outside every decimal system. -/
def isDigitLike (c : Char) : Bool :=
  isDecimal c || inRanges loneDigitTable c.toNat

/-- The number written by a row of digits, read after the digits of `start`. -/
def decimalValue (start : Nat) : List Char → Nat
  | [] => start
  | c :: cs => decimalValue (10 * start + (digitValue c).getD 0) cs

end TriggerEngine.Text
