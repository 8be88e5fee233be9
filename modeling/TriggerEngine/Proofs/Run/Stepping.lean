/-
**The steps of a run.**

A computation of a run is a function from states to results and states.  This module says for each
step that computations are made of what that function is: for the general shape of a computation,
for the steps that do not look at what the watcher remembers, for a visit, and for the steps that
contain others.

Main definitions:

* `Exec.Quiet` — steps that are the same under all watchers and ask none;
* `Exec.answered` — what a run makes of the answer of its watcher;
* `Exec.heard` — what a loop makes of the result of its body;
* `Exec.goesOn` — results after which something is left to do;
* `Interpreter.concluded` — what becomes of a run whose statements came to an end.

Main results:

* `Exec.runFrom_bind` — one computation after the other;
* `Exec.runFrom_visit_some` — a visit;
* `Exec.runFrom_deeper`, `Exec.runFrom_round` — steps around others;
* `Interpreter.run_of_idle` — a run is its statements and a conclusion.
-/

import TriggerEngine.Proofs.Run.WellFormed
import TriggerEngine.Run.Eval

set_option autoImplicit false

namespace TriggerEngine

namespace Exec

variable {ω τ τ₁ τ₂ α β : Type}

/-! ### The shape of a computation -/

theorem runFrom_pure (a : α) (s : State ω τ) : (pure a : Exec ω τ α).runFrom s = (.ok a, s) := rfl

theorem runFrom_fail (fault : Fault) (s : State ω τ) :
    (fail fault : Exec ω τ α).runFrom s = (.error (.fault fault), s) := rfl

theorem runFrom_ofStep (step : State ω τ → Except Stop α × State ω τ) (s : State ω τ) :
    (ofStep step).runFrom s = step s := rfl

theorem runFrom_read (f : State ω τ → Exec ω τ α) (s : State ω τ) :
    (get >>= f).runFrom s = (f s).runFrom s := rfl

theorem runFrom_bind (x : Exec ω τ α) (f : α → Exec ω τ β) (s : State ω τ) :
    (x >>= f).runFrom s =
      match x.runFrom s with
      | (.ok a, s') => (f a).runFrom s'
      | (.error stop, s') => (.error stop, s') := by
  simp only [runFrom, ExceptT.run, bind, ExceptT.bind, ExceptT.mk, StateT.bind]
  rcases x s with ⟨result, s'⟩
  cases result <;> rfl

theorem runFrom_bind_of_ok {x : Exec ω τ α} {f : α → Exec ω τ β} {s s' : State ω τ} {a : α}
    (h : x.runFrom s = (.ok a, s')) : (x >>= f).runFrom s = (f a).runFrom s' := by
  rw [runFrom_bind, h]

theorem runFrom_bind_of_error {x : Exec ω τ α} {f : α → Exec ω τ β} {s s' : State ω τ}
    {stop : Stop} (h : x.runFrom s = (.error stop, s')) :
    (x >>= f).runFrom s = (.error stop, s') := by
  rw [runFrom_bind, h]

theorem runFrom_onWorld (f : Heap → ω → Except Fault α × Heap × ω) (h : Heap) (w : ω)
    (p : Progress) (t : τ) :
    (onWorld f).runFrom ⟨h, w, p, t⟩ =
      ((f h w).1.mapError Stop.fault, ⟨(f h w).2.1, (f h w).2.2, p, t⟩) := by
  rw [onWorld, runFrom_ofStep]
  dsimp only
  rcases f h w with ⟨_ | _, rest⟩ <;> rfl

theorem error_of_mapError {result : Except Fault α} {fault : Fault}
    (h : result.mapError Stop.fault = .error (.fault fault)) : result = .error fault := by
  cases result with
  | ok a => cases h
  | error raised => cases h; rfl

/-! ### Steps that ask no watcher -/

/-- A step under two watchers that asks neither of them, does the same under both and counts no
node. -/
def Quiet (x₁ : Exec ω τ₁ α) (x₂ : Exec ω τ₂ α) : Prop :=
  ∀ h w p, ∃ result h' w' p', p'.steps = p.steps ∧
    (∀ t, x₁.runFrom ⟨h, w, p, t⟩ = (result, ⟨h', w', p', t⟩)) ∧
    ∀ t, x₂.runFrom ⟨h, w, p, t⟩ = (result, ⟨h', w', p', t⟩)

namespace Quiet

theorem pure (a : α) : Quiet (Pure.pure a : Exec ω τ₁ α) (Pure.pure a : Exec ω τ₂ α) :=
  fun h w p => ⟨.ok a, h, w, p, rfl, fun _ => rfl, fun _ => rfl⟩

theorem fail (fault : Fault) : Quiet (Exec.fail fault : Exec ω τ₁ α) (Exec.fail fault : Exec ω τ₂ α) :=
  fun h w p => ⟨.error (.fault fault), h, w, p, rfl, fun _ => rfl, fun _ => rfl⟩

theorem onHeap (f : Heap → α × Heap) :
    Quiet (Exec.onHeap f : Exec ω τ₁ α) (Exec.onHeap f : Exec ω τ₂ α) :=
  fun h w p => ⟨.ok (f h).1, (f h).2, w, p, rfl, fun _ => rfl, fun _ => rfl⟩

theorem onProgress (f : Progress → Progress) (hsteps : ∀ p, (f p).steps = p.steps) :
    Quiet (Exec.onProgress f : Exec ω τ₁ Unit) (Exec.onProgress f : Exec ω τ₂ Unit) :=
  fun h w p => ⟨.ok (), h, w, f p, hsteps p, fun _ => rfl, fun _ => rfl⟩

theorem onWorld (f : Heap → ω → Except Fault α × Heap × ω) :
    Quiet (Exec.onWorld f : Exec ω τ₁ α) (Exec.onWorld f : Exec ω τ₂ α) := by
  intro h w p
  exact ⟨_, _, _, _, rfl, runFrom_onWorld f h w p, runFrom_onWorld f h w p⟩

end Quiet

/-! ### Visits -/

/-- What a run makes of the answer of its watcher. -/
def answered : Except Fault Bool → Except Stop Unit
  | .error fault => .error (.fault fault)
  | .ok true => .error .abort
  | .ok false => .ok ()

section Visit

variable {env : Setting ω τ} {room : Nat} {p : Progress}

theorem runFrom_visit_of_lt (hlimit : env.limits.steps.most < p.steps + 1) (node : Node) (h : Heap)
    (w : ω) (t : τ) :
    (visit env node room).runFrom ⟨h, w, p, t⟩ =
      (.error (.fault (node.faultAt (.limit (.steps env.limits.steps.text)))),
        ⟨h, w, { p with steps := p.steps + 1 }, t⟩) := by
  show (if env.limits.steps.most < p.steps + 1 then _ else _ : Exec ω τ Unit).runFrom _ = _
  rw [if_pos hlimit]
  rfl

theorem runFrom_visit_none (hroom : ¬env.limits.steps.most < p.steps + 1)
    (hw : env.watcher = none) (node : Node) (h : Heap) (w : ω) (t : τ) :
    (visit env node room).runFrom ⟨h, w, p, t⟩ =
      (.ok (), ⟨h, w, { p with steps := p.steps + 1 }, t⟩) := by
  show (if env.limits.steps.most < p.steps + 1 then _ else _ : Exec ω τ Unit).runFrom _ = _
  rw [if_neg hroom, hw]
  rfl

theorem runFrom_visit_some (hroom : ¬env.limits.steps.most < p.steps + 1)
    {watcher : Watcher ω τ} (hw : env.watcher = some watcher) (node : Node) (h : Heap) (w : ω)
    (t : τ) :
    (visit env node room).runFrom ⟨h, w, p, t⟩ =
      let answer := watcher room node { p with steps := p.steps + 1 } h w t
      (answered answer.1, ⟨h, answer.2.1, { p with steps := p.steps + 1 }, answer.2.2⟩) := by
  show (if env.limits.steps.most < p.steps + 1 then _ else _ : Exec ω τ Unit).runFrom _ = _
  rw [if_neg hroom, hw]
  rw [runFrom_ofStep]
  dsimp only
  rcases watcher room node { p with steps := p.steps + 1 } h w t with ⟨result, w', t'⟩
  cases result with
  | error fault => rfl
  | ok stops => cases stops <;> rfl

theorem progress_visit (node : Node) (s : State ω τ) :
    ((visit env node room).runFrom s).2.progress =
      { s.progress with steps := s.progress.steps + 1 } := by
  obtain ⟨h, w, p, t⟩ := s
  by_cases hlimit : env.limits.steps.most < p.steps + 1
  · rw [runFrom_visit_of_lt hlimit]
  · cases hw : env.watcher with
    | none => rw [runFrom_visit_none hlimit hw]
    | some watcher => rw [runFrom_visit_some hlimit hw]

end Visit

/-! ### Steps around others -/

theorem runFrom_deeper (most : Nat) (limit : Unit → Fault) (x : Exec ω τ α) (h : Heap) (w : ω)
    (p : Progress) (t : τ) :
    (deeper most limit x).runFrom ⟨h, w, p, t⟩ =
      let p' := { p with depth := p.depth + 1 }
      let r := if most < p.depth + 1 then (.error (.fault (limit ())), ⟨h, w, p', t⟩)
        else x.runFrom ⟨h, w, p', t⟩
      (r.1, { r.2 with progress := { r.2.progress with depth := r.2.progress.depth - 1 } }) := rfl

/-- What a loop makes of the result of its body: whether it goes on, or with what it stops. -/
def heard : Except Stop Unit → Except Stop Bool
  | .ok () => .ok true
  | .error (.fault (.leave _ _)) => .ok false
  | .error (.fault (.next _ _)) => .ok true
  | .error stop => .error stop

theorem runFrom_round (body : Exec ω τ Unit) (s : State ω τ) :
    (round body).runFrom s = (heard (body.runFrom s).1, (body.runFrom s).2) := by
  rw [round, runFrom_ofStep]
  rcases body.runFrom s with ⟨result, s'⟩
  cases result with
  | ok a => rfl
  | error stop =>
      cases stop with
      | abort => rfl
      | fault fault => cases fault <;> rfl

theorem error_of_heard {result : Except Stop Unit} {stop : Stop} (h : heard result = .error stop) :
    result = .error stop := by
  match result with
  | .ok () => cases h
  | .error .abort => cases h; rfl
  | .error (.fault fault) =>
      cases fault with
      | leave => cases h
      | next => cases h
      | _ => cases h; rfl

/-- Whether a result lets the computation around it go on: a value does, and so does a request to a
loop. -/
def goesOn : Except Stop α → Bool
  | .ok _ => true
  | .error (.fault fault) => fault.isSignal
  | .error .abort => false

theorem goesOn_error {stop : Stop} :
    goesOn (.error stop : Except Stop α) = goesOn (.error stop : Except Stop β) := by
  cases stop <;> rfl

theorem goesOn_of_heard {result : Except Stop Unit} (h : goesOn (heard result) = true) :
    goesOn result = true := by
  match result with
  | .ok () => rfl
  | .error .abort => cases h
  | .error (.fault fault) =>
      cases fault with
      | leave => rfl
      | next => rfl
      | _ => cases h

theorem heard_of_isSignal {fault : Fault} (h : fault.isSignal = false) :
    heard (.error (.fault fault)) = .error (.fault fault) := by
  cases fault with
  | leave => cases h
  | next => cases h
  | _ => rfl

end Exec

/-! ### Whole runs -/

namespace Interpreter

variable {ω τ : Type}

theorem run_of_idle {s : State ω τ} (h : s.progress.phase = .idle) (env : Setting ω τ) (room : Nat)
    (program : Program) :
    run env room program s =
      concluded ((Exec.execAll env program room).runFrom (inPhase .running s)) := by
  have hphase : (s.progress.phase != .idle) = false := by
    rw [h]
    rfl
  rw [run, hphase]
  rfl

theorem run_of_not_idle {s : State ω τ} (h : s.progress.phase ≠ .idle) (env : Setting ω τ)
    (room : Nat) (program : Program) :
    run env room program s = (.error (.used s.progress.phase), s) := by
  have hphase : (s.progress.phase != .idle) = true := by simpa using h
  rw [run, if_pos hphase]

theorem error_of_concluded {r : Except Stop Unit × State ω τ} {fault : Fault}
    (h : (concluded r).1 = .error fault) :
    ∃ raised, r.1 = .error (.fault raised) ∧ fault = surfaced raised := by
  rcases r with ⟨stop | ⟨⟩, s⟩
  · cases stop with
    | abort => cases h
    | fault raised =>
        cases h
        exact ⟨raised, rfl, rfl⟩
  · cases h

end Interpreter

end TriggerEngine
