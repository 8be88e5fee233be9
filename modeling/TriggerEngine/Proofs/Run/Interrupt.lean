/-
**Stopping a run from outside.**

A run asks its watcher before each node.  Two things are shown about that, for all programs and all
worlds.  A watcher that never says yes is not noticed: with it a run comes to the same end, in the
same way, as without any.  And a watcher that says yes at one of its calls ends the run there: what
is left behind is what a watcher that only looks would have seen at that call, however deep inside
of loops, blocks and arguments the node lies.

Both are couplings.  In the second one a run under the recorder goes ahead of a run that will be
stopped.  They go in step up to the call at which the second is stopped, and from then on the second
one does nothing while the first one can only add to what it has seen.

Main definitions:

* `Watcher.IsSilent` — watchers that never stop a run;
* `Snapshot`, `recorder` — what a watcher can see, and the watcher that writes it down;
* `stopAt` — the watcher that stops a run at one of its calls.

Main results:

* `Interpreter.run_silent` — silent watchers are not noticed;
* `Interpreter.run_stopAt` — a run that is stopped is left as it was seen;
* `interrupt_protocol` — both together.
-/

import TriggerEngine.Proofs.Run.Coupling
import TriggerEngine.Proofs.Run.Stepping

set_option autoImplicit false

namespace TriggerEngine

variable {ω τ τ₁ τ₂ α β : Type}

/-! ### Watchers that are not noticed -/

/-- A watcher that never stops a run and leaves the world alone. -/
def Watcher.IsSilent (watcher : Watcher ω τ) : Prop :=
  ∀ room node p h w t, ∃ t', watcher room node p h w t = (.ok false, w, t')

namespace Exec

/-- A relation between computations under two watchers that holds of all quiet steps and is
respected by visits and by the steps around others is a coupling. -/
def Coupling.ofQuiet (S : Scene ω) {w₁ : Option (Watcher ω τ₁)} {w₂ : Option (Watcher ω τ₂)}
    (Rel : {α : Type} → Exec ω τ₁ α → Exec ω τ₂ α → Prop)
    (quiet : ∀ {α : Type} {x₁ : Exec ω τ₁ α} {x₂ : Exec ω τ₂ α}, Quiet x₁ x₂ → Rel x₁ x₂)
    (bind : ∀ {α β : Type} {x₁ : Exec ω τ₁ α} {x₂ : Exec ω τ₂ α} {f₁ : α → Exec ω τ₁ β}
      {f₂ : α → Exec ω τ₂ β}, Rel x₁ x₂ → (∀ a, Rel (f₁ a) (f₂ a)) → Rel (x₁ >>= f₁) (x₂ >>= f₂))
    (read : ∀ {α : Type} {f₁ : State ω τ₁ → Exec ω τ₁ α} {f₂ : State ω τ₂ → Exec ω τ₂ α},
      (∀ h w p t₁ t₂, Rel (f₁ ⟨h, w, p, t₁⟩) (f₂ ⟨h, w, p, t₂⟩)) → Rel (get >>= f₁) (get >>= f₂))
    (visit : ∀ (node : Node) (room : Nat),
      Rel (Exec.visit (S.watched w₁) node room) (Exec.visit (S.watched w₂) node room))
    (deeper : ∀ {α : Type} {most : Nat} {limit : Unit → Fault} {x₁ : Exec ω τ₁ α}
      {x₂ : Exec ω τ₂ α}, Rel x₁ x₂ → Rel (Exec.deeper most limit x₁) (Exec.deeper most limit x₂))
    (round : ∀ {x₁ : Exec ω τ₁ Unit} {x₂ : Exec ω τ₂ Unit}, Rel x₁ x₂ →
      Rel (Exec.round x₁) (Exec.round x₂)) :
    Coupling S w₁ w₂ where
  Rel _ := Rel
  Allows _ := True
  strict := false
  ordinary _ := trivial
  loose _ := fun _ => trivial
  pure a := quiet (.pure a)
  bind := bind
  read := read
  fail _ := quiet (.fail _)
  leave := quiet (.fail _)
  next := quiet (.fail _)
  onHeap f := quiet (.onHeap f)
  setLocal _ _ := quiet (.onProgress _ fun _ => rfl)
  coolDown _ _ := quiet (.onProgress _ fun _ => rfl)
  onWorld _ := quiet (.onWorld _)
  store _ _ := quiet (.onWorld _)
  visit node room _ := visit node room
  deeper _ := deeper
  round := round

/-- Whether two computations come to the same result and the same state, whatever their watchers
remember. -/
def Lockstep (x₁ : Exec ω τ₁ α) (x₂ : Exec ω τ₂ α) : Prop :=
  ∀ h w p t₁ t₂, ∃ result h' w' p' t₁' t₂',
    x₁.runFrom ⟨h, w, p, t₁⟩ = (result, ⟨h', w', p', t₁'⟩) ∧
    x₂.runFrom ⟨h, w, p, t₂⟩ = (result, ⟨h', w', p', t₂'⟩)

namespace Lockstep

theorem of_quiet {x₁ : Exec ω τ₁ α} {x₂ : Exec ω τ₂ α} (hq : Quiet x₁ x₂) : Lockstep x₁ x₂ := by
  intro h w p t₁ t₂
  obtain ⟨result, h', w', p', -, h₁, h₂⟩ := hq h w p
  exact ⟨result, h', w', p', t₁, t₂, h₁ t₁, h₂ t₂⟩

theorem bind {x₁ : Exec ω τ₁ α} {x₂ : Exec ω τ₂ α} {f₁ : α → Exec ω τ₁ β} {f₂ : α → Exec ω τ₂ β}
    (hx : Lockstep x₁ x₂) (hf : ∀ a, Lockstep (f₁ a) (f₂ a)) :
    Lockstep (x₁ >>= f₁) (x₂ >>= f₂) := by
  intro h w p t₁ t₂
  obtain ⟨result, h', w', p', t₁', t₂', h₁, h₂⟩ := hx h w p t₁ t₂
  cases result with
  | ok a =>
      rw [runFrom_bind_of_ok h₁, runFrom_bind_of_ok h₂]
      exact hf a h' w' p' t₁' t₂'
  | error stop =>
      rw [runFrom_bind_of_error h₁, runFrom_bind_of_error h₂]
      exact ⟨_, _, _, _, _, _, rfl, rfl⟩

theorem read {f₁ : State ω τ₁ → Exec ω τ₁ α} {f₂ : State ω τ₂ → Exec ω τ₂ α}
    (hf : ∀ h w p t₁ t₂, Lockstep (f₁ ⟨h, w, p, t₁⟩) (f₂ ⟨h, w, p, t₂⟩)) :
    Lockstep (get >>= f₁) (get >>= f₂) :=
  fun h w p t₁ t₂ => hf h w p t₁ t₂ h w p t₁ t₂

theorem deeper {most : Nat} {limit : Unit → Fault} {x₁ : Exec ω τ₁ α} {x₂ : Exec ω τ₂ α}
    (hx : Lockstep x₁ x₂) : Lockstep (Exec.deeper most limit x₁) (Exec.deeper most limit x₂) := by
  intro h w p t₁ t₂
  rw [runFrom_deeper, runFrom_deeper]
  dsimp only
  split
  · exact ⟨_, _, _, _, _, _, rfl, rfl⟩
  · obtain ⟨result, h', w', p', t₁', t₂', h₁, h₂⟩ := hx h w { p with depth := p.depth + 1 } t₁ t₂
    rw [h₁, h₂]
    exact ⟨_, _, _, _, _, _, rfl, rfl⟩

theorem round {x₁ : Exec ω τ₁ Unit} {x₂ : Exec ω τ₂ Unit} (hx : Lockstep x₁ x₂) :
    Lockstep (Exec.round x₁) (Exec.round x₂) := by
  intro h w p t₁ t₂
  obtain ⟨result, h', w', p', t₁', t₂', h₁, h₂⟩ := hx h w p t₁ t₂
  rw [runFrom_round, runFrom_round, h₁, h₂]
  exact ⟨_, _, _, _, _, _, rfl, rfl⟩

theorem runFrom_visit_silent (S : Scene ω) {watcher : Option (Watcher ω τ)}
    (hsilent : ∀ w, watcher = some w → w.IsSilent) (node : Node) (room : Nat) (h : Heap)
    (w : ω) (p : Progress) (t : τ) :
    ∃ t', (Exec.visit (S.watched watcher) node room).runFrom ⟨h, w, p, t⟩ =
      (if S.limits.steps.most < p.steps + 1 then
        .error (.fault (node.faultAt (.limit (.steps S.limits.steps.text)))) else .ok (),
        ⟨h, w, { p with steps := p.steps + 1 }, t'⟩) := by
  by_cases hlimit : S.limits.steps.most < p.steps + 1
  · exact ⟨t, by rw [if_pos hlimit]; exact runFrom_visit_of_lt hlimit node h w t⟩
  · rw [if_neg hlimit]
    cases watcher with
    | none => exact ⟨t, runFrom_visit_none hlimit rfl node h w t⟩
    | some watcher =>
        obtain ⟨t', hask⟩ := hsilent watcher rfl room node { p with steps := p.steps + 1 } h w t
        refine ⟨t', (runFrom_visit_some hlimit rfl node h w t).trans ?_⟩
        rw [hask]
        rfl

theorem visit (S : Scene ω) {w₁ : Option (Watcher ω τ₁)} {w₂ : Option (Watcher ω τ₂)}
    (h₁ : ∀ w, w₁ = some w → w.IsSilent) (h₂ : ∀ w, w₂ = some w → w.IsSilent) (node : Node)
    (room : Nat) :
    Lockstep (Exec.visit (S.watched w₁) node room) (Exec.visit (S.watched w₂) node room) := by
  intro h w p t₁ t₂
  obtain ⟨t₁', hvisit₁⟩ := runFrom_visit_silent S h₁ node room h w p t₁
  obtain ⟨t₂', hvisit₂⟩ := runFrom_visit_silent S h₂ node room h w p t₂
  exact ⟨_, _, _, _, _, _, hvisit₁, hvisit₂⟩

/-- Runs under silent watchers, or under none, are coupled step by step. -/
def coupling (S : Scene ω) {w₁ : Option (Watcher ω τ₁)} {w₂ : Option (Watcher ω τ₂)}
    (h₁ : ∀ w, w₁ = some w → w.IsSilent) (h₂ : ∀ w, w₂ = some w → w.IsSilent) :
    Coupling S w₁ w₂ :=
  .ofQuiet S Lockstep of_quiet bind read (visit S h₁ h₂) deeper round

end Lockstep

end Exec

/-- **Silent watchers are not noticed**: a run comes to the same result and the same state under
every one of them, and under none. -/
theorem Interpreter.run_silent (S : Scene ω) (w₁ : Option (Watcher ω τ₁))
    (w₂ : Option (Watcher ω τ₂)) (h₁ : ∀ w, w₁ = some w → w.IsSilent)
    (h₂ : ∀ w, w₂ = some w → w.IsSilent) (room : Nat) (program : Program) (h : Heap) (w : ω)
    (p : Progress) (t₁ : τ₁) (t₂ : τ₂) :
    ∃ result h' w' p' t₁' t₂',
      Interpreter.run (S.watched w₁) room program ⟨h, w, p, t₁⟩ =
        (result, ⟨h', w', p', t₁'⟩) ∧
      Interpreter.run (S.watched w₂) room program ⟨h, w, p, t₂⟩ =
        (result, ⟨h', w', p', t₂'⟩) := by
  by_cases hidle : p.phase = .idle
  · have hrel : Exec.Lockstep (Exec.execAll (S.watched w₁) program room)
        (Exec.execAll (S.watched w₂) program room) :=
      (Exec.Lockstep.coupling S h₁ h₂).execAll program false nofun room
    obtain ⟨result, h', w', p', t₁', t₂', hrun₁, hrun₂⟩ :=
      hrel h w { p with phase := .running } t₁ t₂
    rw [Interpreter.run_of_idle hidle, Interpreter.run_of_idle hidle]
    show ∃ _ _ _ _ _ _, Interpreter.concluded ((Exec.execAll (S.watched w₁) program room).runFrom
      ⟨h, w, { p with phase := .running }, t₁⟩) = _ ∧ Interpreter.concluded
        ((Exec.execAll (S.watched w₂) program room).runFrom
          ⟨h, w, { p with phase := .running }, t₂⟩) = _
    rw [hrun₁, hrun₂]
    match result with
    | .ok () => exact ⟨_, _, _, _, _, _, rfl, rfl⟩
    | .error .abort => exact ⟨_, _, _, _, _, _, rfl, rfl⟩
    | .error (.fault _) => exact ⟨_, _, _, _, _, _, rfl, rfl⟩
  · rw [Interpreter.run_of_not_idle hidle, Interpreter.run_of_not_idle hidle]
    exact ⟨_, _, _, _, _, _, rfl, rfl⟩

/-! ### Stopping at a call -/

/-- What a watcher can see at one of its calls. -/
structure Snapshot (ω : Type) where
  /-- What the run keeps. -/
  progress : Progress
  /-- Lists and mappings. -/
  heap : Heap
  /-- The world outside. -/
  world : ω

/-- The watcher that never stops a run and writes down what it sees, call by call. -/
def recorder : Watcher ω (List (Snapshot ω)) :=
  fun _ _ p h w seen => (.ok false, w, seen ++ [⟨p, h, w⟩])

/-- The watcher that counts its calls and stops a run at the `k`-th one. -/
def stopAt (k : Nat) : Watcher ω Nat :=
  fun _ _ _ _ w calls => (.ok (calls + 1 == k), w, calls + 1)

theorem recorder_isSilent : (recorder : Watcher ω (List (Snapshot ω))).IsSilent :=
  fun _ _ p h w seen => ⟨seen ++ [⟨p, h, w⟩], rfl⟩

/-- Whether a state is what was seen, but for the depth, which is given back on the way out. -/
structure Snapshot.Matches (snapshot : Snapshot ω) (s : State ω τ) : Prop where
  heap : s.heap = snapshot.heap
  world : s.world = snapshot.world
  locals : s.progress.locals = snapshot.progress.locals
  steps : s.progress.steps = snapshot.progress.steps
  cooldownEnd : s.progress.cooldownEnd = snapshot.progress.cooldownEnd

namespace Exec

/-- How a run under the recorder and a run that is stopped at the `k`-th call stand to each other.
Either they have gone in step, without having come to that call, or the second one has been stopped
there and is as the first one saw it. -/
inductive Follows (k : Nat) : Except Stop α × State ω (List (Snapshot ω)) →
    Except Stop α × State ω Nat → Prop
  | inStep {result : Except Stop α} {h : Heap} {w : ω} {p : Progress} {seen : List (Snapshot ω)}
      {calls : Nat} (hseen : seen.length < k)
      (hcalls : goesOn result = true → calls = seen.length ∧ p.steps = seen.length) :
      Follows k (result, ⟨h, w, p, seen⟩) (result, ⟨h, w, p, calls⟩)
  | stopped {result : Except Stop α} {s₁ : State ω (List (Snapshot ω))} {s₂ : State ω Nat}
      {snapshot : Snapshot ω} (hseen : s₁.watch[k - 1]? = some snapshot)
      (hsteps : snapshot.progress.steps = k) (hmatch : snapshot.Matches s₂)
      (hcalls : s₂.watch = k) : Follows k (result, s₁) (.error .abort, s₂)

/-- A computation under the recorder that goes ahead of one that is stopped at the `k`-th call. -/
structure Ahead (k : Nat) (x₁ : Exec ω (List (Snapshot ω)) α) (x₂ : Exec ω Nat α) : Prop where
  grows : ∀ s, s.watch <+: (x₁.runFrom s).2.watch
  follows : ∀ h w p seen, seen.length < k → p.steps = seen.length →
    Follows k (x₁.runFrom ⟨h, w, p, seen⟩) (x₂.runFrom ⟨h, w, p, seen.length⟩)

namespace Ahead

variable {k : Nat} {x₁ : Exec ω (List (Snapshot ω)) α} {x₂ : Exec ω Nat α}

theorem of_quiet (hq : Quiet x₁ x₂) : Ahead k x₁ x₂ where
  grows := by
    rintro ⟨h, w, p, seen⟩
    obtain ⟨result, h', w', p', -, h₁, -⟩ := hq h w p
    simp only [h₁, List.prefix_rfl]
  follows := by
    intro h w p seen hseen hsteps
    obtain ⟨result, h', w', p', hsteps', h₁, h₂⟩ := hq h w p
    rw [h₁, h₂]
    exact .inStep hseen fun _ => ⟨rfl, hsteps'.trans hsteps⟩

theorem getElem_of_grows {seen more : List (Snapshot ω)} {snapshot : Snapshot ω} {i : Nat}
    (hseen : seen[i]? = some snapshot) (hgrows : seen <+: more) : more[i]? = some snapshot := by
  obtain ⟨rest, rfl⟩ := hgrows
  obtain ⟨hi, -⟩ := List.getElem?_eq_some_iff.1 hseen
  rw [List.getElem?_append_left hi, hseen]

theorem bind {f₁ : α → Exec ω (List (Snapshot ω)) β} {f₂ : α → Exec ω Nat β}
    (hx : Ahead k x₁ x₂) (hf : ∀ a, Ahead k (f₁ a) (f₂ a)) : Ahead k (x₁ >>= f₁) (x₂ >>= f₂) where
  grows := by
    intro s
    have hgrows := hx.grows s
    cases hrun : x₁.runFrom s with
    | mk result s' =>
        rw [hrun] at hgrows
        cases result with
        | ok a =>
            rw [runFrom_bind_of_ok hrun]
            exact hgrows.trans ((hf a).grows s')
        | error stop =>
            rw [runFrom_bind_of_error hrun]
            exact hgrows
  follows := by
    intro h w p seen hseen hsteps
    have hfollows := hx.follows h w p seen hseen hsteps
    generalize hrun₁ : x₁.runFrom ⟨h, w, p, seen⟩ = r₁ at hfollows
    generalize hrun₂ : x₂.runFrom ⟨h, w, p, seen.length⟩ = r₂ at hfollows
    cases hfollows with
    | @inStep result h' w' p' seen' calls hseen' hcalls =>
        cases result with
        | ok a =>
            obtain ⟨rfl, hsteps'⟩ := hcalls rfl
            rw [runFrom_bind_of_ok hrun₁, runFrom_bind_of_ok hrun₂]
            exact (hf a).follows h' w' p' seen' hseen' hsteps'
        | error stop =>
            rw [runFrom_bind_of_error hrun₁, runFrom_bind_of_error hrun₂]
            exact .inStep hseen' fun hgoes => hcalls (goesOn_error.trans hgoes)
    | @stopped result s₁ s₂ snapshot hseen' hsteps' hmatch hcalls =>
        -- The second run is over; the first one may still add to what it has seen.
        rw [runFrom_bind_of_error hrun₂]
        cases result with
        | ok a =>
            rw [runFrom_bind_of_ok hrun₁]
            exact .stopped (getElem_of_grows hseen' ((hf a).grows s₁)) hsteps' hmatch hcalls
        | error stop =>
            rw [runFrom_bind_of_error hrun₁]
            exact .stopped hseen' hsteps' hmatch hcalls

theorem read {f₁ : State ω (List (Snapshot ω)) → Exec ω (List (Snapshot ω)) α}
    {f₂ : State ω Nat → Exec ω Nat α}
    (hf : ∀ h w p t₁ t₂, Ahead k (f₁ ⟨h, w, p, t₁⟩) (f₂ ⟨h, w, p, t₂⟩)) :
    Ahead k (get >>= f₁) (get >>= f₂) where
  grows := fun ⟨h, w, p, seen⟩ => (hf h w p seen 0).grows ⟨h, w, p, seen⟩
  follows := fun h w p seen => (hf h w p seen seen.length).follows h w p seen

theorem deeper {most : Nat} {limit : Unit → Fault} (hx : Ahead k x₁ x₂) :
    Ahead k (Exec.deeper most limit x₁) (Exec.deeper most limit x₂) where
  grows := by
    rintro ⟨h, w, p, seen⟩
    rw [runFrom_deeper]
    dsimp only
    split
    · exact List.prefix_rfl
    · exact hx.grows ⟨h, w, { p with depth := p.depth + 1 }, seen⟩
  follows := by
    intro h w p seen hseen hsteps
    rw [runFrom_deeper, runFrom_deeper]
    dsimp only
    split
    · exact .inStep hseen fun _ => ⟨rfl, hsteps⟩
    · have hfollows := hx.follows h w { p with depth := p.depth + 1 } seen hseen hsteps
      generalize x₁.runFrom ⟨h, w, { p with depth := p.depth + 1 }, seen⟩ = r₁ at hfollows ⊢
      generalize x₂.runFrom ⟨h, w, { p with depth := p.depth + 1 }, seen.length⟩ = r₂
        at hfollows ⊢
      cases hfollows with
      | inStep hseen' hcalls => exact .inStep hseen' hcalls
      | stopped hseen' hsteps' hmatch hcalls =>
          exact .stopped hseen' hsteps' ⟨hmatch.heap, hmatch.world, hmatch.locals, hmatch.steps,
            hmatch.cooldownEnd⟩ hcalls

theorem round {x₁ : Exec ω (List (Snapshot ω)) Unit} {x₂ : Exec ω Nat Unit}
    (hx : Ahead k x₁ x₂) : Ahead k (Exec.round x₁) (Exec.round x₂) where
  grows := by
    intro s
    rw [runFrom_round]
    exact hx.grows s
  follows := by
    intro h w p seen hseen hsteps
    rw [runFrom_round, runFrom_round]
    have hfollows := hx.follows h w p seen hseen hsteps
    generalize x₁.runFrom ⟨h, w, p, seen⟩ = r₁ at hfollows ⊢
    generalize x₂.runFrom ⟨h, w, p, seen.length⟩ = r₂ at hfollows ⊢
    cases hfollows with
    | inStep hseen' hcalls =>
        exact .inStep hseen' fun hgoes => hcalls (goesOn_of_heard hgoes)
    | stopped hseen' hsteps' hmatch hcalls => exact .stopped hseen' hsteps' hmatch hcalls

theorem visit (S : Scene ω) (node : Node) (room : Nat) :
    Ahead k (Exec.visit (S.watched (some recorder)) node room)
      (Exec.visit (S.watched (some (stopAt k))) node room) where
  grows := by
    rintro ⟨h, w, p, seen⟩
    by_cases hlimit : S.limits.steps.most < p.steps + 1
    · have hstill : ((Exec.visit (S.watched (some recorder)) node room).runFrom
          ⟨h, w, p, seen⟩).2.watch = seen := by rw [runFrom_visit_of_lt hlimit]
      simp only [hstill, List.prefix_rfl]
    · rw [runFrom_visit_some hlimit rfl]
      exact List.prefix_append seen _
  follows := by
    intro h w p seen hseen hsteps
    by_cases hlimit : S.limits.steps.most < p.steps + 1
    · rw [runFrom_visit_of_lt hlimit, runFrom_visit_of_lt hlimit]
      refine .inStep hseen fun hgoes => ?_
      rw [goesOn, (node.isFor_faultAt _).isSignal] at hgoes
      cases hgoes
    · rw [runFrom_visit_some hlimit rfl, runFrom_visit_some hlimit rfl]
      by_cases hcall : seen.length + 1 = k
      · have hanswer : (seen.length + 1 == k) = true := beq_iff_eq.2 hcall
        have hseen' : (seen ++ [(⟨{ p with steps := p.steps + 1 }, h, w⟩ : Snapshot ω)])[k - 1]? =
            some ⟨{ p with steps := p.steps + 1 }, h, w⟩ := by
          rw [← hcall, Nat.add_sub_cancel, List.getElem?_concat_length]
        dsimp only [stopAt, recorder]
        rw [hanswer]
        refine .stopped hseen' ?_ ⟨rfl, rfl, rfl, rfl, rfl⟩ hcall
        show p.steps + 1 = k
        rw [hsteps, hcall]
      · have hanswer : (seen.length + 1 == k) = false := beq_eq_false_iff_ne.2 hcall
        dsimp only [stopAt, recorder]
        rw [hanswer]
        refine .inStep ?_ fun _ => ⟨?_, ?_⟩
        · rw [List.length_append, List.length_singleton]
          omega
        · rw [List.length_append, List.length_singleton]
        · show p.steps + 1 = _
          rw [List.length_append, List.length_singleton, hsteps]

/-- A run under the recorder goes ahead of one that is stopped. -/
def coupling (S : Scene ω) (k : Nat) :
    Coupling S (some (recorder : Watcher ω (List (Snapshot ω)))) (some (stopAt k)) :=
  .ofQuiet S (Ahead k) of_quiet bind read (visit S) deeper round

end Ahead

end Exec

/-- **A run that is stopped is left as it was seen**: if the recorder is asked at least `k` times,
the run that is stopped at the `k`-th call is aborted there after `k` steps, and everything is as
the recorder saw it at that call. -/
theorem Interpreter.run_stopAt (S : Scene ω) (room : Nat) (program : Program) (h : Heap) (w : ω)
    (locals : Table Value) {k : Nat} (hk : 0 < k)
    (hcalls : k ≤ (Interpreter.run (S.watched (some recorder)) room program
      ⟨h, w, .start locals, []⟩).2.watch.length) :
    ∃ snapshot s, (Interpreter.run (S.watched (some recorder)) room program
        ⟨h, w, .start locals, []⟩).2.watch[k - 1]? = some snapshot ∧
      Interpreter.run (S.watched (some (stopAt k))) room program ⟨h, w, .start locals, 0⟩ =
        (.ok ⟨.aborted, k, snapshot.progress.cooldownEnd, snapshot.progress.locals⟩, s) ∧
      s.heap = snapshot.heap ∧ s.world = snapshot.world ∧ s.watch = k := by
  have hahead : Exec.Ahead k (Exec.execAll (S.watched (some recorder)) program room)
      (Exec.execAll (S.watched (some (stopAt k))) program room) :=
    (Exec.Ahead.coupling S k).execAll program false nofun room
  have hfollows := hahead.follows h w { Progress.start locals with phase := .running } [] hk rfl
  rw [Interpreter.run_of_idle rfl] at hcalls ⊢
  rw [Interpreter.run_of_idle rfl]
  have hrecorded : ∀ r : Except Stop Unit × State ω (List (Snapshot ω)),
      (Interpreter.concluded r).2.watch = r.2.watch := by
    rintro ⟨result, s⟩
    match result with
    | .ok () => rfl
    | .error .abort => rfl
    | .error (.fault _) => rfl
  rw [hrecorded] at hcalls ⊢
  change Exec.Follows k ((Exec.execAll (S.watched (some recorder)) program room).runFrom
    (Interpreter.inPhase .running ⟨h, w, .start locals, []⟩))
    ((Exec.execAll (S.watched (some (stopAt k))) program room).runFrom
      (Interpreter.inPhase .running ⟨h, w, .start locals, 0⟩)) at hfollows
  generalize (Exec.execAll (S.watched (some recorder)) program room).runFrom
    (Interpreter.inPhase .running ⟨h, w, .start locals, []⟩) = r₁ at hcalls hfollows ⊢
  generalize (Exec.execAll (S.watched (some (stopAt k))) program room).runFrom
    (Interpreter.inPhase .running ⟨h, w, .start locals, 0⟩) = r₂ at hfollows ⊢
  -- the recorder has seen the `k`-th call, so the two runs did not stay in step
  cases hfollows with
  | inStep hseen _ => exact absurd hcalls (Nat.not_le_of_lt hseen)
  | @stopped result s₁ s₂ snapshot hseen hsteps hmatch hcalls' =>
      refine ⟨snapshot, Interpreter.inPhase .aborted s₂, hseen, ?_, hmatch.heap, hmatch.world,
        hcalls'⟩
      show (Except.ok (⟨.aborted, s₂.progress.steps, s₂.progress.cooldownEnd,
        s₂.progress.locals⟩ : Outcome), Interpreter.inPhase .aborted s₂) = _
      rw [hmatch.steps, hsteps, hmatch.cooldownEnd, hmatch.locals]

/-- **The interrupt protocol.**  A watcher that never says yes is not noticed.  A watcher that says
yes at its `k`-th call ends the run with that call: the run is aborted after `k` steps, and its
variables, its cooldown, the heap and the world are what the recorder sees at its `k`-th call. -/
theorem interrupt_protocol (binding : Binding ω) (limits : Limits) (context : Value) (room : Nat)
    (program : Program) (heap : Heap) (world : ω) (locals : Table Value) :
    (∀ (τ : Type) (watcher : Watcher ω τ) (memory : τ), watcher.IsSilent →
      let plain := Interpreter.run (⟨binding, limits, none, context⟩ : Setting ω Unit) room program
        ⟨heap, world, .start locals, ()⟩
      let watched := Interpreter.run ⟨binding, limits, some watcher, context⟩ room program
        ⟨heap, world, .start locals, memory⟩
      watched.1 = plain.1 ∧ watched.2.heap = plain.2.heap ∧ watched.2.world = plain.2.world ∧
        watched.2.progress = plain.2.progress) ∧
    ∀ k, 0 < k →
      let recorded := Interpreter.run ⟨binding, limits, some recorder, context⟩ room program
        ⟨heap, world, .start locals, []⟩
      let stopped := Interpreter.run ⟨binding, limits, some (stopAt k), context⟩ room program
        ⟨heap, world, .start locals, 0⟩
      k ≤ recorded.2.watch.length →
        ∃ snapshot, recorded.2.watch[k - 1]? = some snapshot ∧
          stopped.1 = .ok ⟨.aborted, k, snapshot.progress.cooldownEnd, snapshot.progress.locals⟩ ∧
          stopped.2.heap = snapshot.heap ∧ stopped.2.world = snapshot.world ∧
          stopped.2.watch = k := by
  let S : Scene ω := ⟨binding, limits, context⟩
  refine ⟨fun τ watcher memory hsilent => ?_, fun k hk => ?_⟩
  · obtain ⟨result, h', w', p', t₁, t₂, hwatched, hplain⟩ :=
      Interpreter.run_silent S (some watcher) (none : Option (Watcher ω Unit))
        (fun w hw => Option.some.inj hw ▸ hsilent) nofun room program heap world (.start locals)
        memory ()
    dsimp only
    rw [show Interpreter.run ⟨binding, limits, some watcher, context⟩ room program
        ⟨heap, world, .start locals, memory⟩ = _ from hwatched,
      show Interpreter.run (⟨binding, limits, none, context⟩ : Setting ω Unit) room program
        ⟨heap, world, .start locals, ()⟩ = _ from hplain]
    exact ⟨rfl, rfl, rfl, rfl⟩
  · intro recorded stopped hcalls
    obtain ⟨snapshot, s, hseen, hstopped, hheap, hworld, hcalls'⟩ :=
      Interpreter.run_stopAt S room program heap world locals hk hcalls
    have hrun : stopped =
        (.ok ⟨.aborted, k, snapshot.progress.cooldownEnd, snapshot.progress.locals⟩, s) := hstopped
    rw [hrun]
    exact ⟨snapshot, hseen, rfl, hheap, hworld, hcalls'⟩

/-- The declaration of `x` as five, stopped at the second call, which is about the five. -/
theorem interrupt_protocol_declaration :
    let program : Program := [.declare "x" (some (.literal .number (.int 5) (1 : Nat) 0)) (1 : Nat)]
    let recorded := Interpreter.run ⟨Host.binding, Config.default.limits, some recorder, .null⟩ 100
      program ⟨{}, {}, .start .empty, []⟩
    let stopped := Interpreter.run ⟨Host.binding, Config.default.limits, some (stopAt 2), .null⟩ 100
      program ⟨{}, {}, .start .empty, 0⟩
    recorded.2.watch.length = 2 ∧ recorded.2.progress.steps = 2 ∧
      ∃ snapshot, recorded.2.watch[1]? = some snapshot ∧
        stopped.1 = .ok ⟨.aborted, 2, snapshot.progress.cooldownEnd, snapshot.progress.locals⟩ ∧
        stopped.2.heap = snapshot.heap ∧ stopped.2.world = snapshot.world ∧
        stopped.2.watch = 2 := by
  have hlength : (Interpreter.run ⟨Host.binding, Config.default.limits, some recorder, .null⟩ 100
      [.declare "x" (some (.literal .number (.int 5) (1 : Nat) 0)) (1 : Nat)]
      ⟨{}, {}, .start .empty, []⟩).2.watch.length = 2 := by decide +kernel
  have hprotocol := interrupt_protocol Host.binding Config.default.limits .null 100
    [.declare "x" (some (.literal .number (.int 5) (1 : Nat) 0)) (1 : Nat)] {} {} .empty
  have hsilent := hprotocol.1 _ recorder [] recorder_isSilent
  refine ⟨hlength, ?_, hprotocol.2 2 (by decide) (Nat.le_of_eq hlength.symm)⟩
  rw [hsilent.2.2.2]
  decide +kernel

end TriggerEngine
