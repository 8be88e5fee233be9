/-
**Decimal text of numbers.**

A double is written with the fewest digits that read back as the same double.  Those digits are
found by exact arithmetic: for one digit, two digits and so on, the two neighbours of the value on
the decimal grid are tested against the interval of reals that round to it.  The same grid gives
the two other forms that occur: no places after the point, and three significant digits.

Main definitions:

* `Number.decimalExponent` — where the first digit of a quotient stands;
* `Number.shortestDigits` — the fewest digits that read back;
* `Number.floatText` — a double as text;
* `Number.intText?` — a whole number as text, if it has at most `maxDigits` digits;
* `Number.wholeText` — a double rounded to a whole number;
* `Number.briefText` — a double with three significant digits.
-/

import TriggerEngine.Number.Binary

set_option autoImplicit false

namespace TriggerEngine.Number

/-- `num / den` scaled by `10 ^ (-p)`, as a quotient of natural numbers. -/
def scaleDecimal (num den : Nat) (p : Int) : Nat × Nat :=
  if 0 ≤ p then (num, den * 10 ^ p.toNat) else (num * 10 ^ (-p).toNat, den)

/-- Raises `k` until `num / den < 10 ^ k`, at most `rounds` times. -/
def raiseExponent (num den : Nat) : Nat → Int → Int
  | 0, k => k
  | rounds + 1, k =>
    let (n, d) := scaleDecimal num den k
    if n < d then k else raiseExponent num den rounds (k + 1)

/-- The `k` with `10 ^ (k - 1) ≤ num / den < 10 ^ k`, for a positive quotient.  The binary
logarithms bound it from below to within three. -/
def decimalExponent (num den : Nat) : Int :=
  let binary : Int := (num.log2 : Int) - den.log2 - 1
  raiseExponent num den 5 (Int.fdiv (binary * 30103) 100000 - 1)

/-- The reals that round to a positive double, as quotients over one denominator: the ends, and
whether the ends belong to it. -/
structure Interval where
  /-- Numerator of the lower end. -/
  low : Nat
  /-- Numerator of the value. -/
  mid : Nat
  /-- Numerator of the upper end. -/
  high : Nat
  /-- The common denominator. -/
  den : Nat
  /-- Whether the ends round to the double too. -/
  closed : Bool

/-- The interval of a positive finite double.  Below a power of two the doubles are twice as
dense. -/
def interval (parts : Finite) : Interval :=
  let m := parts.mantissa
  let (num, den) := exactRatio ⟨false, 1, parts.exponent - 2⟩
  let below := if m == 2 ^ (52 : Nat) && -1074 < parts.exponent then 1 else 2
  ⟨(4 * m - below) * num, 4 * m * num, (4 * m + 2) * num, den, m % 2 == 0⟩

/-- Whether `digits · 10 ^ p` lies in an interval. -/
def Interval.holds (i : Interval) (digits : Nat) (p : Int) : Bool :=
  let (n, d) := scaleDecimal (digits * i.den) 1 (-p)
  if i.closed then i.low * d ≤ n && n ≤ i.high * d else i.low * d < n && n < i.high * d

/-- The neighbour of the value on the grid `10 ^ p` that lies in the interval, the nearer one of
two, the even one of two equally near. -/
def Interval.onGrid (i : Interval) (p : Int) : Option Nat :=
  let (n, d) := scaleDecimal i.mid i.den p
  let below := n / d
  match i.holds below p, i.holds (below + 1) p with
  | true, true => some (divEven n d)
  | true, false => some below
  | false, true => some (below + 1)
  | false, false => none

/-- Tries `count` digits, then one more, and so on. -/
def shortestFrom (i : Interval) (k : Int) : Nat → Nat → Nat × Int
  | 0, count => ((i.onGrid (k - count)).getD 0, k - count)
  | rounds + 1, count =>
    match i.onGrid (k - count) with
    | some digits => (digits, k - count)
    | none => shortestFrom i k rounds (count + 1)

/-- The fewest digits that read back as a positive double, and the power of ten they count. -/
def shortestDigits (parts : Finite) : Nat × Int :=
  let i := interval parts
  shortestFrom i (decimalExponent i.mid i.den) 17 1

/-- Removes the zeros at the end of a row of digits. -/
def dropTrailingZeros (digits : List Char) : List Char :=
  (digits.reverse.dropWhile (· == '0')).reverse

/-- An exponent with its sign and at least two digits. -/
def exponentText (e : Int) : List Char :=
  let digits := Nat.toDigits 10 e.natAbs
  (if e < 0 then '-' else '+') :: (List.replicate (2 - digits.length) '0' ++ digits)

/-- Digits in scientific form, `d.dde+XX`; `k` is where the first digit stands. -/
def scientific (digits : List Char) (k : Int) : List Char :=
  match digits with
  | [] => []
  | first :: rest =>
    (if rest.isEmpty then [first] else first :: '.' :: rest) ++ 'e' :: exponentText (k - 1)

/-- Digits in positional form; `k` digits stand before the point, and what is after the point is
left out if it is empty and `point` is not set. -/
def positional (digits : List Char) (k : Int) (point : Bool) : List Char :=
  if k ≤ 0 then '0' :: '.' :: (List.replicate (-k).toNat '0' ++ digits)
  else
    let whole := digits.take k.toNat
    let whole := whole ++ List.replicate (k.toNat - whole.length) '0'
    let rest := digits.drop k.toNat
    if rest.isEmpty then (if point then whole ++ ['.', '0'] else whole) else whole ++ '.' :: rest

/-- The sign of a text. -/
def withSign (negative : Bool) (cs : List Char) : String :=
  String.ofList (if negative then '-' :: cs else cs)

/-- A double as text: the fewest digits that read back; scientific below `10 ^ -4` and from
`10 ^ 16` on, and always with a point or an exponent. -/
def floatText (x : Float) : String :=
  match decode x with
  | .nan => "nan"
  | .infinite negative => if negative then "-inf" else "inf"
  | .finite parts =>
    if parts.mantissa == 0 then withSign parts.negative ['0', '.', '0']
    else
      let (value, p) := shortestDigits parts
      let written := Nat.toDigits 10 value
      let k : Int := written.length + p
      let digits := dropTrailingZeros written
      withSign parts.negative
        (if -4 < k && k ≤ 16 then positional digits k true else scientific digits k)

/-- The largest number of decimal digits that a whole number is written or read with. -/
def maxDigits : Nat := 4300

/-- A whole number as text. -/
def intText (n : Int) : String :=
  withSign (n < 0) (Nat.toDigits 10 n.natAbs)

/-- A whole number as text, `none` if it has more than `maxDigits` digits. -/
def intText? (n : Int) : Option String :=
  if n.natAbs < 10 ^ maxDigits then some (intText n) else none

/-- A double rounded to a whole number, a half to the even neighbour. -/
def wholeText (x : Float) : String :=
  match decode x with
  | .nan => "nan"
  | .infinite negative => if negative then "-inf" else "inf"
  | .finite parts =>
    let (num, den) := exactRatio parts
    withSign parts.negative (Nat.toDigits 10 (divEven num den))

/-- A double with at most three significant digits; scientific below `10 ^ -4` and from `10 ^ 3`
on, and without zeros at the end. -/
def briefText (x : Float) : String :=
  match decode x with
  | .nan => "nan"
  | .infinite negative => if negative then "-inf" else "inf"
  | .finite parts =>
    if parts.mantissa == 0 then withSign parts.negative ['0']
    else
      let (num, den) := exactRatio parts
      let k := decimalExponent num den
      let (n, d) := scaleDecimal num den (k - 3)
      let rounded := divEven n d
      let (rounded, k) := if rounded == 1000 then (100, k + 1) else (rounded, k)
      let digits := dropTrailingZeros (Nat.toDigits 10 rounded)
      withSign parts.negative
        (if -4 < k && k ≤ 3 then positional digits k false else scientific digits k)

end TriggerEngine.Number
