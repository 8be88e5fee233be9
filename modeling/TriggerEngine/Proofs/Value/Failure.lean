/-
**With which faults something fails.**

Results whose faults are all of some kind.  The member functions of texts and lists have only
refusals of the host to fail with, and so has a sort that compares by them; as faults, refusals are
plain, never ones of the engine.

Main definitions:

* `FailsOnly` — results that fail only with faults of some kind;
* `Fault.isPlain` — faults that are not the engine's own and that no loop listens to.

Main results:

* `Refusal.raise_isPlain` — refusals are plain faults.
-/

import Mathlib
import TriggerEngine.Fault

set_option autoImplicit false

namespace TriggerEngine

/-- A result that fails, if at all, only with faults of some kind. -/
def FailsOnly {ε α : Type} (P : ε → Prop) (result : Except ε α) : Prop :=
  ∀ fault, result = .error fault → P fault

namespace FailsOnly

variable {ε α β : Type} {P : ε → Prop}

theorem ok (a : α) : FailsOnly P (.ok a) := nofun

theorem error {fault : ε} (h : P fault) : FailsOnly P (.error fault : Except ε α) := by
  rintro _ ⟨⟩
  exact h

theorem bind {result : Except ε α} {f : α → Except ε β} (h : FailsOnly P result)
    (hf : ∀ a, FailsOnly P (f a)) : FailsOnly P (result >>= f) := by
  cases result with
  | ok a => exact hf a
  | error fault => exact error (h fault rfl)

theorem map {result : Except ε α} (f : α → β) (h : FailsOnly P result) :
    FailsOnly P (result.map f) := by
  cases result with
  | ok a => exact ok (f a)
  | error fault => exact error (h fault rfl)

end FailsOnly

/-- Whether a fault is neither one of the engine nor a request to a loop. -/
def Fault.isPlain : Fault → Bool
  | .plain _ _ => true
  | _ => false

theorem Refusal.raise_isPlain {α : Type} (result : Except Refusal α) :
    FailsOnly (fun fault => fault.isPlain = true) (Refusal.raise result) := by
  cases result with
  | ok a => exact .ok a
  | error refusal => exact .error rfl

end TriggerEngine
