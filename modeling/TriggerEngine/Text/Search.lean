/-
**Searching in texts.**

Finding, counting, replacing and splitting, on texts as rows of characters.  Occurrences are taken
from the left and do not overlap.  A search may be confined to a window, whose ends count from the
end of the text if they are negative.

Main definitions:

* `Window`, `Window.make` — a stretch of a text;
* `findFirst`, `countAll` — occurrences;
* `replaceAll` — replacing;
* `splitBy`, `fieldsUpTo` — splitting at a separator and at blanks.
-/

import TriggerEngine.Text.Blank

set_option autoImplicit false

namespace TriggerEngine.Text

/-! ### Windows -/

/-- A stretch of a text from `start` up to `stop`; it does not exist if `stop` is smaller. -/
structure Window where
  /-- Where the stretch starts. -/
  start : Nat
  /-- Where it ends. -/
  stop : Nat
  deriving DecidableEq, Repr

/-- The window between two ends in a text of a length; an end that is missing is that of the
text. -/
def Window.make (length : Nat) (start stop : Option Int) : Window :=
  let fromEnd (i : Int) : Nat := if i < 0 then (i + length).toNat else i.toNat
  ⟨(start.map fromEnd).getD 0, min ((stop.map fromEnd).getD length) length⟩

/-- Whether a text of a length fits into a window. -/
def Window.fits (w : Window) (length : Nat) : Bool :=
  w.start + length ≤ w.stop

/-- What a window shows of a text. -/
def Window.view (w : Window) (cs : List Char) : List Char :=
  (cs.take w.stop).drop w.start

/-! ### Occurrences -/

/-- Where a text first occurs in another. -/
def findFirst (sub : List Char) : List Char → Option Nat
  | [] => if sub.isEmpty then some 0 else none
  | c :: cs => if sub.isPrefixOf (c :: cs) then some 0 else (findFirst sub cs).map (· + 1)

/-- How often a text that is not empty occurs behind the next `skip` characters. -/
def countFrom (sub : List Char) : Nat → List Char → Nat
  | _, [] => 0
  | skip + 1, _ :: cs => countFrom sub skip cs
  | 0, c :: cs =>
    if sub.isPrefixOf (c :: cs) then countFrom sub (sub.length - 1) cs + 1 else countFrom sub 0 cs

/-- How often a text occurs in another; the empty text occurs around every character. -/
def countAll (sub cs : List Char) : Nat :=
  if sub.isEmpty then cs.length + 1 else countFrom sub 0 cs

/-! ### Replacing -/

/-- Replaces occurrences of a text that is not empty, at most `most`, behind the next `skip`
characters, which are dropped. -/
def replaceFrom (old new : List Char) : Nat → Nat → List Char → List Char
  | _, _, [] => []
  | most, skip + 1, _ :: cs => replaceFrom old new most skip cs
  | 0, 0, cs => cs
  | most + 1, 0, c :: cs =>
    if old.isPrefixOf (c :: cs) then new ++ replaceFrom old new most (old.length - 1) cs
    else c :: replaceFrom old new (most + 1) 0 cs

/-- Puts a text before every character and at the end, at most `most` times. -/
def interleave (new : List Char) : Nat → List Char → List Char
  | 0, cs => cs
  | _ + 1, [] => new
  | most + 1, c :: cs => new ++ c :: interleave new most cs

/-- Replaces occurrences of a text; `most` bounds their number if it is given. -/
def replaceAll (old new : List Char) (most : Option Nat) (cs : List Char) : List Char :=
  let most := most.getD (cs.length + 1)
  if old.isEmpty then interleave new most cs else replaceFrom old new most 0 cs

/-! ### Splitting -/

/-- Splits at a separator that is not empty, at most `most` times, behind the next `skip`
characters, which are dropped; `piece` holds the piece before, the last character first. -/
def splitFrom (sep : List Char) : Nat → Nat → List Char → List Char → List (List Char)
  | _, _, piece, [] => [piece.reverse]
  | most, skip + 1, piece, _ :: cs => splitFrom sep most skip piece cs
  | 0, 0, piece, cs => [piece.reverse ++ cs]
  | most + 1, 0, piece, c :: cs =>
    if sep.isPrefixOf (c :: cs) then piece.reverse :: splitFrom sep most (sep.length - 1) [] cs
    else splitFrom sep (most + 1) 0 (c :: piece) cs

/-- Splits at a separator that is not empty; `most` bounds the number of cuts if it is given. -/
def splitBy (sep : List Char) (most : Option Nat) (cs : List Char) : List (List Char) :=
  splitFrom sep (most.getD cs.length) 0 [] cs

/-- The fields between blanks, the last of which takes the rest after `most` cuts. -/
def fieldsUpTo : Nat → List Char → List (List Char)
  | most, cs =>
    let cs := cs.dropWhile isBlank
    if cs.isEmpty then []
    else
      match most with
      | 0 => [cs]
      | most + 1 =>
        cs.takeWhile (!isBlank ·) :: fieldsUpTo most (cs.dropWhile (!isBlank ·))

end TriggerEngine.Text
