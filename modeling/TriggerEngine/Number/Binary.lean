/-
**Binary floating point numbers, exactly.**

A finite double is `± m · 2 ^ e` for whole numbers `m` and `e`.  This module reads `m` and `e` off
the bits of a double and rounds a quotient of natural numbers to the nearest double, ties to the
even one.  Every conversion between whole numbers, decimals and doubles is built from these two,
so none of them rounds twice.

Main definitions:

* `Number.Finite`, `Number.decode` — a double as sign, `m` and `e`;
* `Number.nearest` — the double nearest to a quotient;
* `Number.exactRatio` — the value of a finite double as a quotient;
* `Number.ofInt?` — a whole number as a double, if it is not too large.
-/

set_option autoImplicit false

namespace TriggerEngine.Number

/-- Powers are the ones of the core library, whatever else is in sight. -/
instance (priority := 2000) corePower {α : Type} [NatPow α] : Pow α Nat := instPowNat

/-- A finite double: `± mantissa · 2 ^ exponent`. -/
structure Finite where
  /-- Whether the sign bit is set. -/
  negative : Bool
  /-- The mantissa as a whole number, below `2 ^ 53`. -/
  mantissa : Nat
  /-- The power of two that scales it. -/
  exponent : Int

/-- The three kinds of double. -/
inductive Kind where
  /-- A number. -/
  | finite (parts : Finite)
  /-- An infinity with its sign. -/
  | infinite (negative : Bool)
  /-- No number. -/
  | nan

/-- Reads a double off its bits. -/
def decode (x : Float) : Kind :=
  let bits := x.toBits.toNat
  let negative := bits / 2 ^ (63 : Nat) == 1
  let biased : Nat := bits / 2 ^ (52 : Nat) % 2 ^ (11 : Nat)
  let fraction := bits % 2 ^ (52 : Nat)
  if biased == 2047 then
    if fraction == 0 then .infinite negative else .nan
  else if biased == 0 then .finite ⟨negative, fraction, -1074⟩
  else .finite ⟨negative, 2 ^ (52 : Nat) + fraction, (biased : Int) - 1075⟩

/-- The double with the given sign and bits below the sign. -/
def assemble (negative : Bool) (bits : Nat) : Float :=
  Float.ofBits (UInt64.ofNat ((if negative then 2 ^ (63 : Nat) else 0) + bits))

/-- The bits of infinity, without a sign. -/
def infinityBits : Nat := 2047 * 2 ^ (52 : Nat)

/-- Positive infinity. -/
def infinity : Float := assemble false infinityBits

/-- A value that is no number. -/
def notANumber : Float := assemble false (infinityBits + 2 ^ (51 : Nat))

/-- The whole number nearest to `num / den`, the even one of two. -/
def divEven (num den : Nat) : Nat :=
  let quotient := num / den
  let rest := num % den
  if 2 * rest < den then quotient
  else if den < 2 * rest then quotient + 1
  else quotient + quotient % 2

/-- `num / den` scaled by `2 ^ (-e)`, as a quotient of natural numbers. -/
def scaleBinary (num den : Nat) (e : Int) : Nat × Nat :=
  if 0 ≤ e then (num, den * 2 ^ e.toNat) else (num * 2 ^ (-e).toNat, den)

/-- The bits of the double nearest to `num / den` for positive `num` and `den`.  The exponent is
chosen so that the rounded mantissa has 53 bits, or fewer at the least exponent. -/
def nearestBits (num den : Nat) : Nat :=
  let guess : Int := (num.log2 : Int) - den.log2 - 52
  let low := (scaleBinary num den guess).1 / (scaleBinary num den guess).2
  let e := max (if low < 2 ^ (52 : Nat) then guess - 1 else guess) (-1074)
  let (n, d) := scaleBinary num den e
  let m := divEven n d
  if m < 2 ^ (52 : Nat) then m
  else
    let (m, e) := if m == 2 ^ (53 : Nat) then (2 ^ (52 : Nat), e + 1) else (m, e)
    if 971 < e then infinityBits
    else (e + 1075).toNat * 2 ^ (52 : Nat) + (m - 2 ^ (52 : Nat))

/-- The double nearest to `± num / den`, ties to the even one; too large a quotient becomes
infinite.  A zero denominator does not occur. -/
def nearest (negative : Bool) (num den : Nat) : Float :=
  if num == 0 then assemble negative 0 else assemble negative (nearestBits num den)

/-- `m · 2 ^ e` as a quotient of natural numbers. -/
def exactRatio (parts : Finite) : Nat × Nat :=
  if 0 ≤ parts.exponent then (parts.mantissa * 2 ^ parts.exponent.toNat, 1)
  else (parts.mantissa, 2 ^ (-parts.exponent).toNat)

/-- A whole number as a double, `none` if it rounds to infinity. -/
def ofInt? (n : Int) : Option Float :=
  let x := nearest (n < 0) n.natAbs 1
  match decode x with
  | .infinite _ => none
  | _ => some x

/-- The sign of a quotient as a whole number. -/
def signed (negative : Bool) (n : Nat) : Int :=
  if negative then -(n : Int) else n

/-- The least whole number that is not below a finite double. -/
def ceil (parts : Finite) : Int :=
  let (num, den) := exactRatio parts
  if parts.negative then -((num / den : Nat) : Int) else ((num + den - 1) / den : Nat)

/-- Whether a finite double is a whole number. -/
def isWhole (parts : Finite) : Bool :=
  let (num, den) := exactRatio parts
  num % den == 0

/-- Orders a whole number and a finite double by their values. -/
def compareInt (n : Int) (parts : Finite) : Ordering :=
  let (num, den) := exactRatio parts
  compare (n * den) (signed parts.negative num)

/-- The remainder of `a` by `b`, with the sign of `a`, computed without rounding. -/
def remainder (a b : Finite) : Float :=
  let (numA, denA) := exactRatio a
  let (numB, denB) := exactRatio b
  nearest a.negative (numA * denB % (numB * denA)) (denA * denB)

end TriggerEngine.Number
