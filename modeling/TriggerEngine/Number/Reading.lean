/-
**Reading numbers out of settings.**

A setting gives a number as free text: blanks around it, a sign, digits of any writing system, and
single underscores between digits.  A whole number is that and nothing more; a double may have a
point, an exponent, or be one of the words for infinity and for no number.

Main definitions:

* `Number.readInt?` — a whole number;
* `Number.readFloat?` — a double;
* `Number.ofDecimal` — the double nearest to a decimal.
-/

import TriggerEngine.Number.Binary
import TriggerEngine.Number.Decimal
import TriggerEngine.Text.Blank
import TriggerEngine.Text.Digit

set_option autoImplicit false

namespace TriggerEngine.Number

open Text

/-- Blanks that may stand around a number: all but the information separators. -/
def isMargin (c : Char) : Bool :=
  isBlank c && !(28 ≤ c.toNat && c.toNat ≤ 31)

/-- A sign and what follows it; no sign is plus. -/
def takeSign : List Char → Bool × List Char
  | '-' :: cs => (true, cs)
  | '+' :: cs => (false, cs)
  | cs => (false, cs)

/-- A row of digits as its values, with single underscores between digits left out; the rest
starts with no digit. -/
def takeDigits : List Char → List Nat × List Char
  | [] => ([], [])
  | [c] =>
    match digitValue c with
    | some d => ([d], [])
    | none => ([], [c])
  | c :: c' :: cs =>
    match digitValue c with
    | none => ([], c :: c' :: cs)
    | some d =>
      let (ds, rest) :=
        if c' == '_' && cs.head?.any isDecimal then takeDigits cs else takeDigits (c' :: cs)
      (d :: ds, rest)

/-- The number that a row of decimal digits writes. -/
def ofDigits (ds : List Nat) : Nat :=
  ds.foldl (fun n d => 10 * n + d) 0

/-- A whole number: sign and digits, at most `maxDigits` of them, between blanks. -/
def readInt? (cs : List Char) : Option Int :=
  let (negative, cs) := takeSign (trimBy isMargin cs)
  match takeDigits cs with
  | ([], _) => none
  | (ds, []) => if ds.length ≤ maxDigits then some (signed negative (ofDigits ds)) else none
  | _ => none

/-- The double nearest to `± n · 10 ^ e`.  Exponents that lead far beyond the doubles are decided
without computing the power. -/
def ofDecimal (negative : Bool) (n : Nat) (e : Int) : Float :=
  if n == 0 then assemble negative 0
  else
    let first : Int := (Nat.toDigits 10 n).length + e
    if 310 < first then assemble negative infinityBits
    else if first < -330 then assemble negative 0
    else
      let (num, den) := scaleDecimal n 1 (-e)
      nearest negative num den

/-- The exponent after an `e`, with nothing behind it; no `e` at all is exponent zero. -/
def readExponent? : List Char → Option Int
  | [] => some 0
  | c :: cs =>
    if c == 'e' || c == 'E' then
      let (negative, cs) := takeSign cs
      match takeDigits cs with
      | ([], _) => none
      | (ds, []) => some (signed negative (ofDigits ds))
      | _ => none
    else none

/-- A decimal without sign: digits, a point and digits, an exponent; at least one digit stands
before the exponent. -/
def readDecimal? (negative : Bool) (cs : List Char) : Option Float :=
  let (whole, rest) := takeDigits cs
  let (places, rest) :=
    match rest with
    | '.' :: rest => takeDigits rest
    | rest => ([], rest)
  if whole.isEmpty && places.isEmpty then none
  else (readExponent? rest).map fun e =>
    ofDecimal negative (ofDigits (whole ++ places)) (e - places.length)

/-- A double: a decimal with a sign, or a word for infinity or for no number in any case, between
blanks. -/
def readFloat? (cs : List Char) : Option Float :=
  let (negative, cs) := takeSign (trimBy isMargin cs)
  let word := String.ofList (cs.map Char.toLower)
  if word == "inf" || word == "infinity" then some (assemble negative infinityBits)
  else if word == "nan" then some notANumber
  else readDecimal? negative cs

end TriggerEngine.Number
