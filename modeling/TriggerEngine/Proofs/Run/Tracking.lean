/-
**Watchers that remember more.**

A watcher is often to be compared with one that remembers more but decides in the same way: the
second keeps books about a run, and the run does not notice.  At the same time something is to be
shown that holds in every state of the run.  Both are questions about single steps.  A tracking
answers them for each kind of step, and the theorems of this module answer them for whole runs.

Main definitions:

* `State.mapWatch` — a state whose watcher remembers less;
* `Exec.ExpressionTracking`, `Exec.Tracking` — a property of states that every step of an
  expression, or of a run, keeps while the books are kept.

Main results:

* `Exec.ExpressionTracking.eval` — a property that the steps of expressions keep is kept by
  expressions;
* `Exec.Tracking.coupling` — trackings are couplings;
* `Exec.Tracking.run` — **a property that every step keeps is kept by runs**, and keeping books
  makes no difference to them.
-/

import TriggerEngine.Proofs.Run.Outside

set_option autoImplicit false

namespace TriggerEngine

variable {ω τ₁ τ₂ α β : Type}

/-- The state in which less is remembered. -/
def State.mapWatch (f : τ₁ → τ₂) (s : State ω τ₁) : State ω τ₂ :=
  ⟨s.heap, s.world, s.progress, f s.watch⟩

namespace Exec

/-- A property of states, up to their heaps, that is kept by every step of an expression under a
watcher that remembers more than another one. -/
structure ExpressionTracking (S : Scene ω) (w₁ : Watcher ω τ₁) (w₂ : Watcher ω τ₂)
    (forget : τ₁ → τ₂) (I : ω → Progress → τ₁ → Prop) : Prop where
  depth : ∀ {w p t} (depth : Nat), I w p t → I w { p with depth } t
  turn : ∀ {w w' p t}, S.binding.Changes S.context w w' → I w p t → I w' p t
  /-- A visit beyond the limit. -/
  exceed : ∀ {w p t}, S.limits.steps.most < p.steps + 1 → I w p t →
    I w { p with steps := p.steps + 1 } t
  /-- A visit at which the watcher is asked. -/
  watch : ∀ {w p t} (room : Nat) (node : Node) (h : Heap), ¬S.limits.steps.most < p.steps + 1 →
    I w p t →
    let p' := { p with steps := p.steps + 1 }
    I (w₁ room node p' h w t).2.1 p' (w₁ room node p' h w t).2.2
  agrees : ∀ room node p h w t, w₂ room node p h w (forget t) =
    ((w₁ room node p h w t).1, (w₁ room node p h w t).2.1, forget (w₁ room node p h w t).2.2)

/-- A property of states, up to their heaps, that is kept by every step of a run under a watcher
that remembers more than another one. -/
structure Tracking (S : Scene ω) (w₁ : Watcher ω τ₁) (w₂ : Watcher ω τ₂) (forget : τ₁ → τ₂)
    (I : ω → Progress → τ₁ → Prop) : Prop extends ExpressionTracking S w₁ w₂ forget I where
  locals : ∀ {w p t} (locals : Locals), I w p t → I w { p with locals } t
  phase : ∀ {w p t} (phase : Phase), I w p t → I w { p with phase } t
  coolDown : ∀ {w p t} (time : Number) (cooldownMark : Mark), I w p t →
    I w { p with cooldownEnd := some time, cooldownMark } t
  write : ∀ {w p t} (name : String) (v : Value), I w p t → I (S.binding.writeGlobal name v w) p t

/-- Whether a computation keeps a property of states, and another one does the same with states in
which less is remembered. -/
def Tracks (forget : τ₁ → τ₂) (I : ω → Progress → τ₁ → Prop) (x₁ : Exec ω τ₁ α)
    (x₂ : Exec ω τ₂ α) : Prop :=
  ∀ s : State ω τ₁, I s.world s.progress s.watch →
    I (x₁.runFrom s).2.world (x₁.runFrom s).2.progress (x₁.runFrom s).2.watch ∧
      x₂.runFrom (s.mapWatch forget) = ((x₁.runFrom s).1, (x₁.runFrom s).2.mapWatch forget)

namespace Tracks

variable {forget : τ₁ → τ₂} {I : ω → Progress → τ₁ → Prop}

theorem keeps {x₁ : Exec ω τ₁ α} {x₂ : Exec ω τ₂ α} (hx : Tracks forget I x₁ x₂)
    {s s' : State ω τ₁} (hs : I s.world s.progress s.watch) {result : Except Stop α}
    (hrun : x₁.runFrom s = (result, s')) : I s'.world s'.progress s'.watch := by
  obtain ⟨hkeeps, -⟩ := hx s hs
  rw [hrun] at hkeeps
  exact hkeeps

theorem bind {x₁ : Exec ω τ₁ α} {x₂ : Exec ω τ₂ α} {f₁ : α → Exec ω τ₁ β} {f₂ : α → Exec ω τ₂ β}
    (hx : Tracks forget I x₁ x₂) (hf : ∀ a, Tracks forget I (f₁ a) (f₂ a)) :
    Tracks forget I (x₁ >>= f₁) (x₂ >>= f₂) := by
  intro s hs
  obtain ⟨hkeeps, hsame⟩ := hx s hs
  rcases hrun : x₁.runFrom s with ⟨stop | a, s'⟩
  · rw [hrun] at hkeeps hsame
    rw [runFrom_bind_of_error hrun, runFrom_bind_of_error hsame]
    exact ⟨hkeeps, rfl⟩
  · rw [hrun] at hkeeps hsame
    rw [runFrom_bind_of_ok hrun, runFrom_bind_of_ok hsame]
    exact hf a s' hkeeps

theorem onWorld {f : Heap → ω → Except Fault α × Heap × ω}
    (hf : ∀ h {w p t}, I w p t → I (f h w).2.2 p t) :
    Tracks forget I (Exec.onWorld f) (Exec.onWorld f) := by
  intro ⟨h, w, p, t⟩ hI
  rw [State.mapWatch, runFrom_onWorld, runFrom_onWorld]
  exact ⟨hf h hI, rfl⟩

theorem round {x₁ : Exec ω τ₁ Unit} {x₂ : Exec ω τ₂ Unit} (hx : Tracks forget I x₁ x₂) :
    Tracks forget I (Exec.round x₁) (Exec.round x₂) := by
  intro s hs
  obtain ⟨hkeeps, hsame⟩ := hx s hs
  rw [runFrom_round, runFrom_round, hsame]
  exact ⟨hkeeps, rfl⟩

end Tracks

namespace ExpressionTracking

variable {S : Scene ω} {w₁ : Watcher ω τ₁} {w₂ : Watcher ω τ₂} {forget : τ₁ → τ₂}
  {I : ω → Progress → τ₁ → Prop} (T : ExpressionTracking S w₁ w₂ forget I)

include T

theorem tracks_deeper {most : Nat} {limit : Unit → Fault} {x₁ : Exec ω τ₁ α} {x₂ : Exec ω τ₂ α}
    (hx : Tracks forget I x₁ x₂) :
    Tracks forget I (Exec.deeper most limit x₁) (Exec.deeper most limit x₂) := by
  intro ⟨h, w, p, t⟩ hI
  rw [State.mapWatch, runFrom_deeper, runFrom_deeper]
  dsimp only
  have hdeep := T.depth (p.depth + 1) hI
  split
  · exact ⟨T.depth _ hdeep, rfl⟩
  · obtain ⟨hkeeps, hsame⟩ := hx ⟨h, w, { p with depth := p.depth + 1 }, t⟩ hdeep
    rw [State.mapWatch] at hsame
    rw [hsame]
    exact ⟨T.depth _ hkeeps, rfl⟩

theorem tracks_visit (node : Node) (room : Nat) :
    Tracks forget I (Exec.visit (S.watched (some w₁)) node room)
      (Exec.visit (S.watched (some w₂)) node room) := by
  intro ⟨h, w, p, t⟩ hI
  rw [State.mapWatch]
  by_cases hlimit : S.limits.steps.most < p.steps + 1
  · rw [runFrom_visit_of_lt hlimit, runFrom_visit_of_lt hlimit]
    exact ⟨T.exceed hlimit hI, rfl⟩
  · rw [runFrom_visit_some hlimit rfl, runFrom_visit_some hlimit rfl, T.agrees]
    exact ⟨T.watch room node h hlimit hI, rfl⟩

theorem tracks_onWorld {P : Fault → Prop} {f : Heap → ω → Except Fault α × Heap × ω}
    (hturn : Turn S.binding S.context P f) :
    Tracks forget I (Exec.onWorld f) (Exec.onWorld f) :=
  .onWorld fun h {_ p t} hI => hturn.keeps (I := fun w => I w p t) T.turn h hI

/-- Trackings of expressions are pairings of expressions. -/
def pairing : ExpressionPairing (S.watched (some w₁)) S.limits (some w₂) where
  Rel _ := Tracks forget I
  Allows _ := True
  Holds _ := True
  strict := false
  blunt _ := trivial
  cause _ _ := trivial
  notWord _ _ := trivial
  loose _ := fun _ => trivial
  pure _ _ hs := ⟨hs, rfl⟩
  bind := .bind
  read hf s hs := hf s.heap s.world s.progress s.watch (forget s.watch) s hs
  fail _ _ hs := ⟨hs, rfl⟩
  onHeap _ _ hs := ⟨hs, rfl⟩
  onWorld := T.tracks_onWorld
  visit room _ _ := T.tracks_visit _ room
  deeper _ _ := T.tracks_deeper

theorem eval (node : Node) (room : Nat) :
    Tracks forget I (Exec.eval (S.watched (some w₁)) node room)
      (Exec.eval (S.watched (some w₂)) node room) :=
  T.pairing.eval nofun (fun _ _ => trivial) false room

theorem evaluateAll (nodes : List Node) (room : Nat) :
    Tracks forget I (Exec.evaluateAll (S.watched (some w₁)) nodes room)
      (Exec.evaluateAll (S.watched (some w₂)) nodes room) :=
  T.pairing.evaluateAll nodes nofun (fun _ _ => trivial) false room

theorem consult (room : Nat) (inquiry : Inquiry) :
    Tracks forget I (Exec.consult (S.watched (some w₁)) room inquiry)
      (Exec.consult (S.watched (some w₂)) room inquiry) :=
  have hrel : T.pairing.Rel false _ _ := T.pairing.consult room inquiry
  hrel

end ExpressionTracking

/-- Trackings are couplings. -/
def Tracking.coupling {S : Scene ω} {w₁ : Watcher ω τ₁} {w₂ : Watcher ω τ₂} {forget : τ₁ → τ₂}
    {I : ω → Progress → τ₁ → Prop} (T : Tracking S w₁ w₂ forget I) :
    Coupling S (some w₁) (some w₂) where
  Rel _ := Tracks forget I
  Allows _ := True
  strict := false
  ordinary _ := trivial
  loose _ := fun _ => trivial
  pure _ _ hs := ⟨hs, rfl⟩
  bind := .bind
  read hf s hs := hf s.heap s.world s.progress s.watch (forget s.watch) s hs
  fail _ _ hs := ⟨hs, rfl⟩
  leave _ hs := ⟨hs, rfl⟩
  next _ hs := ⟨hs, rfl⟩
  onHeap _ _ hs := ⟨hs, rfl⟩
  setLocal _ _ _ hs := ⟨T.locals _ hs, rfl⟩
  coolDown time mark _ hs := ⟨T.coolDown time mark hs, rfl⟩
  onWorld := T.tracks_onWorld
  store name v := .onWorld fun _ {_ _ _} hI => T.write name v hI
  visit node room _ := T.tracks_visit node room
  deeper _ := T.tracks_deeper
  round := .round

end Exec

namespace Interpreter

theorem concluded_mapWatch (forget : τ₁ → τ₂) (r : Except Stop Unit × State ω τ₁) :
    concluded (r.1, r.2.mapWatch forget) =
      ((concluded r).1, (concluded r).2.mapWatch forget) := by
  match r with
  | (.ok (), _) => rfl
  | (.error .abort, _) => rfl
  | (.error (.fault _), _) => rfl

theorem concluded_progress (r : Except Stop Unit × State ω τ₁) :
    ∃ phase, (concluded r).2 = inPhase phase r.2 := by
  match r with
  | (.ok (), _) => exact ⟨.completed, rfl⟩
  | (.error .abort, _) => exact ⟨.aborted, rfl⟩
  | (.error (.fault fault), _) => exact ⟨fallen fault, rfl⟩

end Interpreter

/-- **A property that every step keeps is kept by runs**, and a run does not notice that books are
kept about it. -/
theorem Exec.Tracking.run {S : Scene ω} {w₁ : Watcher ω τ₁} {w₂ : Watcher ω τ₂}
    {forget : τ₁ → τ₂} {I : ω → Progress → τ₁ → Prop} (T : Tracking S w₁ w₂ forget I) (room : Nat)
    (program : Program) (s : State ω τ₁) (hs : I s.world s.progress s.watch) :
    let r := Interpreter.run (S.watched (some w₁)) room program s
    I r.2.world r.2.progress r.2.watch ∧
      Interpreter.run (S.watched (some w₂)) room program (s.mapWatch forget) =
        (r.1, r.2.mapWatch forget) := by
  intro r
  by_cases hidle : s.progress.phase = .idle
  · obtain ⟨hkeeps, hsame⟩ := T.coupling.execAll program false nofun room
      (Interpreter.inPhase .running s) (T.phase .running hs)
    have hr : r = _ := Interpreter.run_of_idle hidle (S.watched (some w₁)) room program
    rw [hr, Interpreter.run_of_idle (s := s.mapWatch forget) hidle,
      ← Interpreter.concluded_mapWatch]
    refine ⟨?_, congrArg Interpreter.concluded hsame⟩
    obtain ⟨phase, hphase⟩ := Interpreter.concluded_progress
      ((execAll (S.watched (some w₁)) program room).runFrom (Interpreter.inPhase .running s))
    rw [hphase]
    exact T.phase phase hkeeps
  · have hr : r = _ := Interpreter.run_of_not_idle hidle (S.watched (some w₁)) room program
    rw [hr, Interpreter.run_of_not_idle (s := s.mapWatch forget) hidle]
    exact ⟨hs, rfl⟩

end TriggerEngine
