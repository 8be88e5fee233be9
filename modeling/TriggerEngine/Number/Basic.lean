/-
**Numbers.**

A script number is a whole number of any size or a double.  Whole numbers stay whole under
addition, subtraction, multiplication and the remainder, and under a division that comes out even;
as soon as a double takes part, the other operand is converted to one.  Order and equality compare
values exactly, so no conversion takes part in them.

Main definitions:

* `Number` — the type;
* `Number.Trouble` — the two conversions that can fail;
* `Number.add`, `Number.sub`, `Number.mul`, `Number.div`, `Number.mod`, `Number.neg`;
* `Number.compare?` — the order, `none` beside a value that is no number.
-/

import TriggerEngine.Number.Decimal

set_option autoImplicit false

namespace TriggerEngine

/-- A whole number or a double. -/
inductive Number where
  /-- A whole number. -/
  | int (n : Int)
  /-- A double. -/
  | float (x : Float)

namespace Number

/-- Why an operation on numbers has no result. -/
inductive Trouble where
  /-- A whole number is too large to be an operand beside a double. -/
  | operandTooLarge
  /-- The quotient of two whole numbers is too large for a double. -/
  | quotientTooLarge
  deriving DecidableEq, Repr

/-- The wording of a trouble. -/
def Trouble.message : Trouble → String
  | .operandTooLarge => "int too large to convert to float"
  | .quotientTooLarge => "integer division result too large for a float"

/-- A number as a double. -/
def toFloat : Number → Except Trouble Float
  | .int n =>
    match ofInt? n with
    | some x => .ok x
    | none => .error .operandTooLarge
  | .float x => .ok x

/-- Applies an operation on whole numbers if both operands are whole, else one on doubles. -/
def lift (whole : Int → Int → Int) (real : Float → Float → Float) :
    Number → Number → Except Trouble Number
  | .int a, .int b => .ok (.int (whole a b))
  | a, b =>
    match a.toFloat, b.toFloat with
    | .ok x, .ok y => .ok (.float (real x y))
    | .error t, _ => .error t
    | _, .error t => .error t

/-- The sum. -/
def add : Number → Number → Except Trouble Number :=
  lift (· + ·) (· + ·)

/-- The difference. -/
def sub : Number → Number → Except Trouble Number :=
  lift (· - ·) (· - ·)

/-- The product. -/
def mul : Number → Number → Except Trouble Number :=
  lift (· * ·) (· * ·)

/-- The remainder of doubles, with the sign of the divisor. -/
def floatMod (x y : Float) : Float :=
  match decode x, decode y with
  | .finite a, .finite b =>
    if b.mantissa == 0 then notANumber
    else
      let r := remainder a b
      if r == 0 then assemble b.negative 0
      else if (r < 0) != b.negative then r + y else r
  | .finite a, .infinite negative =>
    if a.mantissa == 0 then assemble negative 0
    else if a.negative != negative then y else x
  | _, _ => notANumber

/-- The remainder, with the sign of the divisor. -/
def mod : Number → Number → Except Trouble Number :=
  lift Int.fmod floatMod

/-- The quotient: whole if whole numbers divide evenly, else the nearest double.  The divisor is
not zero. -/
def div : Number → Number → Except Trouble Number
  | .int a, .int b =>
    if Int.fmod a b == 0 then .ok (.int (Int.fdiv a b))
    else
      let x := nearest ((a < 0) != (b < 0)) a.natAbs b.natAbs
      match decode x with
      | .infinite _ => .error .quotientTooLarge
      | _ => .ok (.float x)
  | a, b =>
    match a.toFloat, b.toFloat with
    | .ok x, .ok y => .ok (.float (x / y))
    | .error t, _ => .error t
    | _, .error t => .error t

/-- The number with the other sign. -/
def neg : Number → Number
  | .int n => .int (-n)
  | .float x => .float (-x)

/-- Whether a number is zero, of either sign. -/
def isZero : Number → Bool
  | .int n => n == 0
  | .float x => x == 0

/-- Orders a whole number and a double by value. -/
def compareMixed (n : Int) (x : Float) : Option Ordering :=
  match decode x with
  | .nan => none
  | .infinite negative => some (if negative then .gt else .lt)
  | .finite parts => some (compareInt n parts)

/-- Orders two numbers by value; a value that is no number has no place in the order. -/
def compare? : Number → Number → Option Ordering
  | .int a, .int b => some (compare a b)
  | .int a, .float y => compareMixed a y
  | .float x, .int b => (compareMixed b x).map Ordering.swap
  | .float x, .float y =>
    if x < y then some .lt else if x == y then some .eq else if y < x then some .gt else none

/-- Equality by value. -/
def eq (a b : Number) : Bool :=
  compare? a b == some .eq

/-- Strict order by value. -/
def lt (a b : Number) : Bool :=
  compare? a b == some .lt

/-- Order by value. -/
def le (a b : Number) : Bool :=
  lt a b || eq a b

/-- A number as text, `none` if it is a whole number with too many digits. -/
def text? : Number → Option String
  | .int n => intText? n
  | .float x => some (floatText x)

end Number

end TriggerEngine
