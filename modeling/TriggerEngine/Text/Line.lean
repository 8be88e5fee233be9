/-
**Lines of a text.**

Where the lines of a text end, for readers that show a text line by line: at line feeds, carriage
returns, or both together, and at the other characters that end a line or a page.

Main definitions:

* `Text.isLineEnd` — the characters that end a line;
* `Text.lines` — the lines of a text;
* `Text.wordAt` — the word around a place of a line.
-/

import TriggerEngine.Text.Word

set_option autoImplicit false

namespace TriggerEngine.Text

/-- Whether a character ends a line. -/
def isLineEnd (c : Char) : Bool :=
  let n := c.toNat
  (0x0A ≤ n && n ≤ 0x0D) || (0x1C ≤ n && n ≤ 0x1E) || n == 0x85 || n == 0x2028 || n == 0x2029

/-- The lines of a text, with the characters of the first one, in reverse, that were read
already. -/
def linesFrom (run : List Char) : List Char → List (List Char)
  | [] => if run.isEmpty then [] else [run.reverse]
  | '\r' :: '\n' :: rest => run.reverse :: linesFrom [] rest
  | c :: rest =>
    if isLineEnd c then run.reverse :: linesFrom [] rest else linesFrom (c :: run) rest

/-- The lines of a text without the characters that end them. -/
def lines (s : String) : List (List Char) :=
  linesFrom [] s.toList

/-- The word that ends before and goes on behind a place of a line, empty if there is none. -/
def wordAt (line : List Char) (place : Nat) : List Char :=
  ((line.take place).reverse.takeWhile isAsciiWord).reverse ++
    (line.drop place).takeWhile isAsciiWord

end TriggerEngine.Text
