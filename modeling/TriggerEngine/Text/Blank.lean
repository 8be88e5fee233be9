/-
**Blank characters.**

Trimming and splitting text, and reading numbers out of settings, pass over blanks: the ASCII
white space, the four information separators, and the spaces and line separators beyond ASCII.

Main definitions:

* `Text.isBlank` — the blank characters;
* `Text.trim` — text without the blanks at its ends;
* `Text.fields` — the runs of characters between blanks.
-/

set_option autoImplicit false

namespace TriggerEngine.Text

/-- Blank characters. -/
def isBlank (c : Char) : Bool :=
  let n := c.toNat
  (9 ≤ n && n ≤ 13) || (28 ≤ n && n ≤ 32) || n == 0x85 || n == 0xa0 || n == 0x1680 ||
    (0x2000 ≤ n && n ≤ 0x200a) || n == 0x2028 || n == 0x2029 || n == 0x202f || n == 0x205f ||
    n == 0x3000

/-- The characters without those at both ends that satisfy `p`. -/
def trimBy (p : Char → Bool) (cs : List Char) : List Char :=
  ((cs.dropWhile p).reverse.dropWhile p).reverse

/-- The characters without the blanks at both ends. -/
def trim (cs : List Char) : List Char :=
  trimBy isBlank cs

/-- The runs of characters between blanks, after the run collected so far (in reverse). -/
def fieldsFrom (run : List Char) : List Char → List (List Char)
  | [] => if run.isEmpty then [] else [run.reverse]
  | c :: cs =>
    if isBlank c then
      if run.isEmpty then fieldsFrom [] cs else run.reverse :: fieldsFrom [] cs
    else fieldsFrom (c :: run) cs

/-- The runs of characters between blanks; no run is empty. -/
def fields (cs : List Char) : List (List Char) :=
  fieldsFrom [] cs

end TriggerEngine.Text
