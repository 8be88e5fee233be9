/-
**Tables of character ranges.**

The classes of characters that matter to scripts outside ASCII (digits, word characters, printable
characters, case) are given by tables of ranges of code points.  A table is written by the distances
in it: by turns, how many code points are left out before a range and how many the range has.

Main definitions:

* `Text.offset?` — how far a code point lies in a range of a table;
* `Text.inRanges` — whether it lies in one.
-/

set_option autoImplicit false

namespace TriggerEngine.Text

/-- How far the code point `n` lies in a range of a table, `none` if it lies in none. -/
def offset? : List Nat → Nat → Option Nat
  | gap :: size :: rest, n =>
    if n < gap then none
    else if n < gap + size then some (n - gap)
    else offset? rest (n - (gap + size))
  | _, _ => none

/-- Whether some range of a table holds the code point `n`. -/
def inRanges (table : List Nat) (n : Nat) : Bool :=
  (offset? table n).isSome

end TriggerEngine.Text
