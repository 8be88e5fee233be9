/-
**Cooldowns.**

An actor that has set off a trigger may have to wait before it can set off another.  The store
remembers for every actor when its cooldown ends; whether the cooldown is live is decided by the
clock, and nothing is ever removed.

Actors are keys: numbers and truth values of one value are one actor, and a list or mapping cannot
be one.

Main definitions:

* `Cooldowns` — the store, with `Cooldowns.get?` and `Cooldowns.put?`;
* `Cooldowns.remaining` — the time that is left;
* `Cooldowns.isActive` — whether a cooldown is live;
* `Cooldowns.notice` — what an actor is told.
-/

import TriggerEngine.Fault
import TriggerEngine.Value.Heap

set_option autoImplicit false

namespace TriggerEngine

/-- The ends of cooldowns by actor. -/
structure Cooldowns where
  /-- Actors and ends, in order of insertion. -/
  ends : Array (Value × Value) := #[]

namespace Cooldowns

/-- Requires a value that can be an actor. -/
def checkActor (actor : Value) : Except Fault Unit :=
  if actor.isHashable then .ok () else .error (.unhashable actor)

/-- The end of an actor's cooldown, or nothing. -/
def get? (c : Cooldowns) (actor : Value) : Except Fault Value := do
  checkActor actor
  return (Heap.entryGet? c.ends actor).getD .null

/-- Records when an actor's cooldown ends. -/
def put? (c : Cooldowns) (actor stop : Value) : Except Fault Cooldowns := do
  checkActor actor
  return ⟨Heap.entryPut c.ends actor stop⟩

/-- The class of a number. -/
def numberClass : Number → String
  | .int _ => "int"
  | .float _ => "float"

/-- The time between two moments. -/
def between (stop : Value) (clock : Number) : Except Fault Number :=
  match stop.numeric? with
  | none =>
    .error (.plain .type ("unsupported operand type(s) for -: '" ++ stop.className ++ "' and '" ++
      numberClass clock ++ "'"))
  | some n =>
    match n.sub clock with
    | .ok time => .ok time
    | .error trouble => .error (.ofTrouble trouble)

/-- A span of time, or none if it is not positive. -/
def atLeastZero (n : Number) : Number :=
  if (Number.float 0).lt n then n else .float 0

/-- The time that is left of an actor's cooldown. -/
def remaining (c : Cooldowns) (clock : Number) (actor : Value) : Except Fault Number := do
  match ← c.get? actor with
  | .null => return .float 0
  | stop => return atLeastZero (← between stop clock)

/-- Whether time is left. -/
def isLive (left : Number) : Bool :=
  (Number.int 0).lt left

/-- Whether an actor's cooldown is live. -/
def isActive (c : Cooldowns) (clock : Number) (actor : Value) : Except Fault Bool :=
  (c.remaining clock actor).map isLive

/-- A number of seconds as text, rounded up. -/
def secondsText (v : Value) : Except Fault String :=
  let written (n : Int) : Except Fault String :=
    match Number.intText? n with
    | some s => .ok s
    | none => .error .tooManyDigits
  match v.numeric? with
  | none => .error (.plain .type ("must be real number, not " ++ v.className))
  | some (.int n) => written n
  | some (.float x) =>
    match Number.decode x with
    | .nan => .error (.plain .value "cannot convert float NaN to integer")
    | .infinite _ => .error (.plain .overflow "cannot convert float infinity to integer")
    | .finite parts => written (Number.ceil parts)

/-- What an actor is told who has to wait. -/
def noticeFor (left : Value) : Except Fault String :=
  (secondsText left).map fun s => "Cooldown: " ++ s ++ " secs left."

/-- What an actor is told about the time that is left. -/
def notice (c : Cooldowns) (clock : Number) (actor : Value) : Except Fault String := do
  noticeFor (.ofNumber (← c.remaining clock actor) .shared)

end Cooldowns

end TriggerEngine
