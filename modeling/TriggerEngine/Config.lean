/-
**Limits.**

A run may visit only so many nodes and nest only so deeply, and an activation may be given a time
after which it is stopped.  The limits are given as values, or as texts in named settings; they
have to be positive numbers.  A limit that is no whole number cuts off where the number of nodes
passes it, and one beyond all numbers never does.

Main definitions:

* `Limit`, `Limits` — what a run is held to;
* `Config`, `Config.make?` — the limits as given, checked;
* `Config.ofSettings?` — the limits from named settings.
-/

import TriggerEngine.Fault
import TriggerEngine.Number.Reading
import TriggerEngine.Text.Quoted

set_option autoImplicit false

namespace TriggerEngine

/-! ### Limits -/

/-- An upper bound on a count, with the way it is worded. -/
structure Limit where
  /-- The largest count that is allowed. -/
  most : Nat
  /-- How the limit is worded. -/
  text : String
  deriving DecidableEq, Repr

/-- What a run is held to. -/
structure Limits where
  /-- How many nodes may be visited. -/
  steps : Limit
  /-- How deeply expressions and blocks may nest. -/
  depth : Limit
  deriving DecidableEq, Repr

/-- A bound that no run reaches. -/
def Limit.beyond : Nat := 2 ^ (64 : Nat)

/-- The largest whole number up to a number, zero if there is none. -/
def Limit.floor : Number → Nat
  | .int n => n.toNat
  | .float x =>
    match Number.decode x with
    | .finite parts => (if Number.isWhole parts then Number.ceil parts else Number.ceil parts - 1).toNat
    | _ => beyond

/-- A number or truth value as a limit. -/
def Limit.ofValue (v : Value) : Limit :=
  let text :=
    match v with
    | .bool b => if b then "True" else "False"
    | .int n _ => Number.intText n
    | .float x _ => Number.floatText x
    | _ => ""
  ⟨(v.numeric?.map Limit.floor).getD beyond, text⟩

/-! ### Configurations -/

/-- The limits of an engine as they were given. -/
structure Config where
  /-- How many nodes a run may visit. -/
  maxSteps : Value
  /-- How deeply a run may nest. -/
  maxDepth : Value
  /-- How many seconds a run may take, or nothing. -/
  timeout : Value

namespace Config

/-- How many nodes a run may visit if nothing else is said. -/
def defaultSteps : Value := .whole 100000

/-- How deeply a run may nest if nothing else is said. -/
def defaultDepth : Value := .whole 128

/-- The limits if nothing is said. -/
def default : Config := ⟨defaultSteps, defaultDepth, .null⟩

/-- Requires a positive number. -/
def checkPositive (name : String) (v : Value) : Except Fault Unit :=
  match v.numeric? with
  | none =>
    .error (.plain .type
      ("'<=' not supported between instances of '" ++ v.className ++ "' and 'int'"))
  | some n =>
    if n.le (.int 0) then .error (.plain .value (name ++ " must be positive")) else .ok ()

/-- Checked limits. -/
def make? (maxSteps maxDepth timeout : Value) : Except Fault Config := do
  checkPositive "max_steps" maxSteps
  checkPositive "max_depth" maxDepth
  if !timeout.isNull then checkPositive "timeout" timeout
  return ⟨maxSteps, maxDepth, timeout⟩

/-- What a run is held to. -/
def limits (c : Config) : Limits :=
  ⟨Limit.ofValue c.maxSteps, Limit.ofValue c.maxDepth⟩

/-- How many seconds a run may take, if that is limited. -/
def timeLimit? (c : Config) : Option Number :=
  c.timeout.numeric?

/-! ### Settings -/

/-- Reads a setting; one that is absent or blank is as if it were not there. -/
def setting? (settings : List (String × String)) (name : String)
    (read? : List Char → Option Value) (fallback : Value) : Except Fault Value :=
  match settings.lookup name with
  | none => .ok fallback
  | some raw =>
    if (Text.trim raw.toList).isEmpty then .ok fallback
    else
      match read? raw.toList with
      | some v => .ok v
      | none => .error (.plain .value (name ++ " must be a number, got " ++ Text.quote raw))

/-- The limits from named settings. -/
def ofSettings? (settings : List (String × String)) : Except Fault Config := do
  let whole (cs : List Char) := (Number.readInt? cs).map Value.whole
  let real (cs : List Char) := (Number.readFloat? cs).map (Value.float · .shared)
  let maxSteps ← setting? settings "TRIGSCRIPT_MAX_STEPS" whole defaultSteps
  let maxDepth ← setting? settings "TRIGSCRIPT_MAX_DEPTH" whole defaultDepth
  let timeout ← setting? settings "TRIGSCRIPT_TIMEOUT" real .null
  make? maxSteps maxDepth timeout

end Config

end TriggerEngine
