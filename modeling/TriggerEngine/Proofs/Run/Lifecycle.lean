/-
**The life of a run.**

A run goes into expressions and blocks and comes out of them in many ways: with a value, because a
loop is left or continued, because it is stopped, because a limit is met, or because something
failed in the script or outside.  Whatever the way is, the depth is what it was before.  So the
depth at which a watcher is asked is never larger than allowed, and a run is at the surface when it
ends.

A run is running from its start to its end, and after its end it is spent.  In neither phase can it
be started again: an attempt is refused and changes nothing, be it made after the run or by the host
while one of its routines is called.

Main definitions:

* `Sighting`, `Watcher.noting` — what a watcher is asked about, and the watcher that notes it;
* `Setting.noted` — the setting in which the watcher notes what it is asked about;
* `Exec.Leaves` — computations that leave depth and phase as they were.

Main results:

* `Exec.Leaves.pairing` — every part of a run does;
* `Interpreter.run_noted` — noting makes no difference;
* `interpreter_lifecycle` — **the life of a run**.
-/

import TriggerEngine.Proofs.Run.Course
import TriggerEngine.Proofs.Run.Tracking

set_option autoImplicit false

namespace TriggerEngine

variable {ω τ α β : Type}

/-! ### Watchers that take notes -/

/-- What a watcher is asked about: a node, and how the run and the world stand. -/
structure Sighting (ω : Type) where
  /-- The node. -/
  node : Node
  /-- What the run keeps. -/
  progress : Progress
  /-- The world outside. -/
  world : ω

/-- The watcher that answers like another one and notes what it is asked about. -/
def Watcher.noting (watcher : Watcher ω τ) : Watcher ω (τ × List (Sighting ω)) :=
  fun room node p h w t =>
    ((watcher room node p h w t.1).1, (watcher room node p h w t.1).2.1,
      (watcher room node p h w t.1).2.2, t.2 ++ [⟨node, p, w⟩])

/-- The setting in which the watcher, if there is one, notes what it is asked about. -/
def Setting.noted (env : Setting ω τ) : Setting ω (τ × List (Sighting ω)) :=
  env.under env.limits (env.watcher.map Watcher.noting)

/-! ### Leaving things as they were -/

/-- How a state may follow another one in which a part of a run starts: depth and phase are the
same, and the watcher was asked about nodes with some property, at an allowed depth and in that
phase. -/
structure State.Leaves (most : Nat) (P : Node → Prop) (s s' : State ω (τ × List (Sighting ω))) :
    Prop where
  depth : s'.progress.depth = s.progress.depth
  phase : s'.progress.phase = s.progress.phase
  notes : ∃ more, s'.watch.2 = s.watch.2 ++ more ∧
    ∀ seen ∈ more, P seen.node ∧ seen.progress.depth ≤ most ∧
      seen.progress.phase = s.progress.phase

namespace State.Leaves

variable {most : Nat} {P : Node → Prop} {s s' s'' : State ω (τ × List (Sighting ω))}

theorem of_eq (hdepth : s'.progress.depth = s.progress.depth)
    (hphase : s'.progress.phase = s.progress.phase) (hwatch : s'.watch = s.watch) :
    s.Leaves most P s' :=
  ⟨hdepth, hphase, [], by rw [hwatch, List.append_nil], by simp⟩

theorem trans (h : s.Leaves most P s') (h' : s'.Leaves most P s'') : s.Leaves most P s'' := by
  obtain ⟨more, hmore, hall⟩ := h.notes
  obtain ⟨more', hmore', hall'⟩ := h'.notes
  refine ⟨h'.depth.trans h.depth, h'.phase.trans h.phase, more ++ more', ?_, ?_⟩
  · rw [hmore', hmore, List.append_assoc]
  · refine List.forall_mem_append.2 ⟨hall, fun seen hseen => ?_⟩
    obtain ⟨hP, hdepth, hphase⟩ := hall' seen hseen
    exact ⟨hP, hdepth, hphase.trans h.phase⟩

end State.Leaves

namespace Exec

/-- Whether a part of a run, started at an allowed depth, leaves depth and phase as they were, while
another one does the same without notes being taken. -/
def Leaves (most : Nat) (P : Node → Prop) (x₁ : Exec ω (τ × List (Sighting ω)) α) (x₂ : Exec ω τ α) :
    Prop :=
  ∀ s : State ω (τ × List (Sighting ω)), s.progress.depth ≤ most →
    s.Leaves most P (x₁.runFrom s).2 ∧
      x₂.runFrom (s.mapWatch Prod.fst) = ((x₁.runFrom s).1, (x₁.runFrom s).2.mapWatch Prod.fst)

namespace Leaves

variable {most : Nat} {P : Node → Prop}

theorem of_step {x₁ : Exec ω (τ × List (Sighting ω)) α} {x₂ : Exec ω τ α}
    (h : ∀ s : State ω (τ × List (Sighting ω)),
      (x₁.runFrom s).2.progress.depth = s.progress.depth ∧
      (x₁.runFrom s).2.progress.phase = s.progress.phase ∧ (x₁.runFrom s).2.watch = s.watch ∧
      x₂.runFrom (s.mapWatch Prod.fst) =
        ((x₁.runFrom s).1, (x₁.runFrom s).2.mapWatch Prod.fst)) : Leaves most P x₁ x₂ := by
  intro s _
  obtain ⟨hdepth, hphase, hwatch, hsame⟩ := h s
  exact ⟨.of_eq hdepth hphase hwatch, hsame⟩

theorem onWorld (f : Heap → ω → Except Fault α × Heap × ω) :
    Leaves most P (Exec.onWorld f : Exec ω (τ × List (Sighting ω)) α) (Exec.onWorld f) := by
  refine of_step fun ⟨h, w, p, t⟩ => ?_
  rw [State.mapWatch, runFrom_onWorld, runFrom_onWorld]
  exact ⟨rfl, rfl, rfl, rfl⟩

theorem bind {x₁ : Exec ω (τ × List (Sighting ω)) α} {x₂ : Exec ω τ α}
    {f₁ : α → Exec ω (τ × List (Sighting ω)) β} {f₂ : α → Exec ω τ β} (hx : Leaves most P x₁ x₂)
    (hf : ∀ a, Leaves most P (f₁ a) (f₂ a)) : Leaves most P (x₁ >>= f₁) (x₂ >>= f₂) := by
  intro s hs
  obtain ⟨hleaves, hsame⟩ := hx s hs
  rcases hrun : x₁.runFrom s with ⟨stop | a, s'⟩
  · rw [hrun] at hleaves hsame
    rw [runFrom_bind_of_error hrun, runFrom_bind_of_error hsame]
    exact ⟨hleaves, rfl⟩
  · rw [hrun] at hleaves hsame
    rw [runFrom_bind_of_ok hrun, runFrom_bind_of_ok hsame]
    obtain ⟨hleaves', hsame'⟩ := hf a s' (hleaves.depth.trans_le hs)
    exact ⟨hleaves.trans hleaves', hsame'⟩

theorem deeper {limit : Unit → Fault} {x₁ : Exec ω (τ × List (Sighting ω)) α} {x₂ : Exec ω τ α}
    (hx : Leaves most P x₁ x₂) :
    Leaves most P (Exec.deeper most limit x₁) (Exec.deeper most limit x₂) := by
  intro ⟨h, w, p, t⟩ _
  rw [State.mapWatch, runFrom_deeper, runFrom_deeper]
  dsimp only
  split
  · exact ⟨.of_eq rfl rfl rfl, rfl⟩
  · rename_i hdepth
    obtain ⟨hleaves, hsame⟩ := hx ⟨h, w, { p with depth := p.depth + 1 }, t⟩ (Nat.le_of_not_lt hdepth)
    rw [State.mapWatch] at hsame
    rw [hsame]
    refine ⟨⟨?_, hleaves.phase, hleaves.notes⟩, rfl⟩
    show (x₁.runFrom _).2.progress.depth - 1 = p.depth
    rw [hleaves.depth]
    rfl

theorem round {x₁ : Exec ω (τ × List (Sighting ω)) Unit} {x₂ : Exec ω τ Unit}
    (hx : Leaves most P x₁ x₂) : Leaves most P (Exec.round x₁) (Exec.round x₂) := by
  intro s hs
  obtain ⟨hleaves, hsame⟩ := hx s hs
  rw [runFrom_round, runFrom_round, hsame]
  exact ⟨hleaves, rfl⟩

theorem visit {env : Setting ω τ} {node : Node} {room : Nat} (hnode : P node) :
    Leaves env.limits.depth.most P (Exec.visit env.noted node room) (Exec.visit env node room) := by
  intro ⟨h, w, p, t⟩ hdepth
  rw [State.mapWatch]
  by_cases hlimit : env.limits.steps.most < p.steps + 1
  · have hlimit' : env.noted.limits.steps.most < p.steps + 1 := hlimit
    rw [runFrom_visit_of_lt hlimit, runFrom_visit_of_lt hlimit']
    exact ⟨.of_eq rfl rfl rfl, rfl⟩
  · have hlimit' : ¬env.noted.limits.steps.most < p.steps + 1 := hlimit
    cases hwatcher : env.watcher with
    | none =>
        have hnoted : env.noted.watcher = none := congrArg (Option.map Watcher.noting) hwatcher
        rw [runFrom_visit_none hlimit hwatcher, runFrom_visit_none hlimit' hnoted]
        exact ⟨.of_eq rfl rfl rfl, rfl⟩
    | some watcher =>
        have hnoted : env.noted.watcher = some watcher.noting :=
          congrArg (Option.map Watcher.noting) hwatcher
        rw [runFrom_visit_some hlimit hwatcher, runFrom_visit_some hlimit' hnoted]
        refine ⟨⟨rfl, rfl, [⟨node, { p with steps := p.steps + 1 }, w⟩], rfl, ?_⟩, rfl⟩
        simpa using ⟨hnode, hdepth⟩

/-- One computation after the other. -/
def stepwise (most : Nat) (P : Node → Prop) : Stepwise ω (τ × List (Sighting ω)) τ where
  Rel _ := Leaves most P
  pure _ := of_step fun _ => ⟨rfl, rfl, rfl, rfl⟩
  bind := bind
  noRoom := of_step fun _ => ⟨rfl, rfl, rfl, rfl⟩
  setLocal _ _ := of_step fun _ => ⟨rfl, rfl, rfl, rfl⟩
  round := round

theorem repetition {env : Setting ω τ} {test₁ : Exec ω (τ × List (Sighting ω)) Bool}
    {test₂ : Exec ω τ Bool} {body₁ : Exec ω (τ × List (Sighting ω)) Unit} {body₂ : Exec ω τ Unit}
    (htest : Leaves most P test₁ test₂) (hbody : Leaves most P body₁ body₂) :
    Leaves most P (Exec.rounds env.noted >>= Exec.repeatWhile test₁ body₁)
      (Exec.rounds env >>= Exec.repeatWhile test₂ body₂) :=
  bind (of_step fun _ => ⟨rfl, rfl, rfl, rfl⟩)
    (@Stepwise.repeatWhile _ _ _ (stepwise most P) false _ _ hbody _ _ htest)

theorem items {env : Setting ω τ} (name : Name) (room id : Nat)
    {body₁ : Exec ω (τ × List (Sighting ω)) Unit} {body₂ : Exec ω τ Unit}
    (hbody : Leaves most P body₁ body₂) :
    Leaves most P
      (Exec.rounds env.noted >>= fun fuel => Exec.forItems env.noted room name id body₁ fuel 0)
      (Exec.rounds env >>= fun fuel => Exec.forItems env room name id body₂ fuel 0) :=
  bind (of_step fun _ => ⟨rfl, rfl, rfl, rfl⟩) fun fuel =>
    @Stepwise.forItems _ _ _ (stepwise most P) false _ _ hbody env.noted env room id
      (fun _ => onWorld _) name fuel 0

/-- Every part of a run leaves depth and phase as they were, and its watcher is asked about nodes of
the program at an allowed depth. -/
def pairing (env : Setting ω τ) (P : Node → Prop) : Pairing env.noted env.limits env.watcher where
  Rel _ := Leaves env.limits.depth.most P
  Allows _ := True
  Holds := P
  strict := false
  blunt _ := trivial
  cause _ _ := trivial
  notWord _ _ := trivial
  loose _ := fun _ => trivial
  pure _ := of_step fun _ => ⟨rfl, rfl, rfl, rfl⟩
  bind := bind
  read hf s := hf s.heap s.world s.progress s.watch s.watch.1 s
  fail _ := of_step fun _ => ⟨rfl, rfl, rfl, rfl⟩
  leave := of_step fun _ => ⟨rfl, rfl, rfl, rfl⟩
  next := of_step fun _ => ⟨rfl, rfl, rfl, rfl⟩
  onHeap _ := of_step fun _ => ⟨rfl, rfl, rfl, rfl⟩
  setLocal _ _ := of_step fun _ => ⟨rfl, rfl, rfl, rfl⟩
  coolDown _ _ := of_step fun _ => ⟨rfl, rfl, rfl, rfl⟩
  onWorld _ := onWorld _
  store _ _ := onWorld _
  visit _ hnode _ := visit hnode
  deeper _ _ := deeper
  round := round
  repetition htest hbody :=
    repetition (bind htest fun _ => bind (onWorld _) fun _ => of_step fun _ => ⟨rfl, rfl, rfl, rfl⟩)
      hbody
  items name id _ room hbody := items name room id hbody

theorem keeps (env : Setting ω τ) (phase : Phase) :
    (pairing env fun _ => True).Keeps fun s =>
      s.progress.phase = phase ∧ s.progress.depth ≤ env.limits.depth.most where
  loose := rfl
  holds _ := trivial
  keeps {_ _ x₁ x₂} h {s a s'} hs hrun := by
    obtain ⟨hleaves, hsame⟩ := h ⟨s.heap, s.world, s.progress, s.watch, []⟩ hs.2
    obtain rfl : s' = _ := congrArg Prod.snd (hrun.symm.trans hsame)
    exact ⟨hleaves.phase.trans hs.1, hleaves.depth.trans_le hs.2⟩
  deepened hdepth hs := ⟨hs.1, Nat.le_of_not_lt hdepth⟩

end Leaves

end Exec

/-! ### Runs -/

namespace Interpreter

theorem run_noted (env : Setting ω τ) {P : Node → Prop} (room : Nat) {program : Program}
    (hprogram : Node.EachOf P program) (heap : Heap) (world : ω) (locals : Table Value)
    (memory : τ) :
    let r := run env room program ⟨heap, world, .start locals, memory⟩
    let noted := run env.noted room program ⟨heap, world, .start locals, memory, []⟩
    r = (noted.1, noted.2.mapWatch Prod.fst) ∧ r.2.progress.depth = 0 ∧
      ∀ seen ∈ noted.2.watch.2, P seen.node ∧ seen.progress.depth ≤ env.limits.depth.most ∧
        seen.progress.phase = .running := by
  intro r noted
  obtain ⟨hleaves, hsame⟩ := (Exec.Leaves.pairing env P).execAll program false nofun hprogram room
    (inPhase .running ⟨heap, world, .start locals, memory, []⟩) (Nat.zero_le _)
  have hnoted : noted = _ := run_of_idle rfl env.noted room program
  have hr : r = (noted.1, noted.2.mapWatch Prod.fst) := by
    rw [hnoted, ← concluded_mapWatch]
    exact (run_of_idle rfl env room program).trans (congrArg concluded hsame)
  obtain ⟨phase, hphase⟩ := concluded_progress ((Exec.execAll env.noted program room).runFrom
    (inPhase .running ⟨heap, world, .start locals, memory, []⟩))
  obtain ⟨more, hmore, hall⟩ := hleaves.notes
  rw [hr, hnoted, hphase]
  refine ⟨rfl, hleaves.depth, fun seen hseen => hall seen ?_⟩
  have hmem : seen ∈ [] ++ more := hmore ▸ hseen
  exact hmem

theorem phase_of_concluded (r : Except Stop Unit × State ω τ) :
    (∀ outcome, (concluded r).1 = .ok outcome → outcome.phase = (concluded r).2.progress.phase ∧
      (outcome.phase = .completed ∨ outcome.phase = .aborted)) ∧
    ∀ fault, (concluded r).1 = .error fault →
      (concluded r).2.progress.phase = if fault.isCaught then .failed else .running := by
  rcases r with ⟨stop | ⟨⟩, s⟩
  · cases stop with
    | abort =>
        refine ⟨?_, fun fault hfault => ?_⟩
        · rintro outcome ⟨⟩
          exact ⟨rfl, .inr rfl⟩
        · cases hfault
    | fault raised =>
        refine ⟨fun outcome hok => ?_, ?_⟩
        · cases hok
        · rintro fault ⟨⟩
          have hcaught : (surfaced raised).isCaught = raised.isCaught := by
            unfold surfaced
            split <;> rfl
          rw [hcaught]
          rfl
  · refine ⟨?_, fun fault hfault => ?_⟩
    · rintro outcome ⟨⟩
      exact ⟨rfl, .inl rfl⟩
    · cases hfault

theorem Course.phase {env : Setting ω τ} {room : Nat} {program : Program} {heap : Heap} {world : ω}
    {locals : Table Value} {memory : τ} {m : Moment ω τ}
    (h : Course env room program ⟨heap, world, .start locals, memory⟩ m) :
    m.state.progress.phase = .running :=
  (Course.keeps (Exec.Leaves.keeps env .running) h ⟨rfl, Nat.zero_le _⟩).1

end Interpreter

/-- **The life of a run.**  Whatever the program, the world, the limits and the watcher are, which
may fail: after a run the depth is zero, and the run is completed or aborted if it has an outcome.
If it has none, it has failed, or it is left running by a fault that nobody catches.  Its watcher,
whose calls may be noted without a difference, is asked at an allowed depth.  After the run every
other one is refused and changes nothing, and so is every run that is attempted at a moment of its
course: while a routine of the host is called, while a member is looked up, or while the watcher is
asked. -/
theorem interpreter_lifecycle (env : Setting ω τ) (room : Nat) (program : Program) (heap : Heap)
    (world : ω) (locals : Table Value) (memory : τ) :
    let start : State ω τ := ⟨heap, world, .start locals, memory⟩
    let r := Interpreter.run env room program start
    let noted := Interpreter.run env.noted room program ⟨heap, world, .start locals, memory, []⟩
    (r.2.progress.depth = 0 ∧
      (∀ outcome, r.1 = .ok outcome → outcome.phase = r.2.progress.phase ∧
        (outcome.phase = .completed ∨ outcome.phase = .aborted)) ∧
      ∀ fault, r.1 = .error fault →
        r.2.progress.phase = if fault.isCaught then .failed else .running) ∧
    (r = (noted.1, noted.2.mapWatch Prod.fst) ∧
      ∀ seen ∈ noted.2.watch.2, seen.progress.depth ≤ env.limits.depth.most) ∧
    (∀ (env' : Setting ω τ) (room' : Nat) (program' : Program),
      Interpreter.run env' room' program' r.2 = (.error (.used r.2.progress.phase), r.2)) ∧
    ∀ m, Interpreter.Course env room program start m →
      ∀ (env' : Setting ω τ) (room' : Nat) (program' : Program),
        Interpreter.run env' room' program' m.state = (.error (.used .running), m.state) := by
  intro start r noted
  obtain ⟨hsame, hdepth, hseen⟩ := Interpreter.run_noted env room (P := fun _ => True)
    (fun _ _ => trivial) heap world locals memory
  have hr : r = _ := Interpreter.run_of_idle rfl env room program
  obtain ⟨hok, herror⟩ := Interpreter.phase_of_concluded
    ((Exec.execAll env program room).runFrom (Interpreter.inPhase .running start))
  rw [← hr] at hok herror
  refine ⟨⟨hdepth, hok, herror⟩, ⟨hsame, fun seen hmem => (hseen seen hmem).2.1⟩, ?_, ?_⟩
  · refine Interpreter.run_of_not_idle ?_
    rcases hresult : r.1 with fault | outcome
    · rw [herror fault hresult]
      split <;> decide
    · obtain ⟨hphase, hends⟩ := hok outcome hresult
      rw [← hphase]
      rcases hends with hcompleted | haborted
      · rw [hcompleted]
        decide
      · rw [haborted]
        decide
  · intro m hm env' room' program'
    have hphase := hm.phase
    rw [Interpreter.run_of_not_idle (by rw [hphase]; decide), hphase]

/-- A routine of the host that is called by a script, and attempts to start the run anew. -/
theorem interpreter_lifecycle_called :
    let line : Line := .number 1
    let env : Setting Unit Unit := ⟨.still, ⟨⟨9, "9"⟩, ⟨9, "9"⟩⟩, none, .null⟩
    let program : Program := [.expression (.reference .executor "go" [] line) line]
    let start : State Unit Unit := ⟨{}, (), .start .empty, ()⟩
    (∃ m, Interpreter.Course env 10 program start m ∧ m.task = .named .executor "go" [] ∧
      m.state.progress.depth = 1 ∧
      Interpreter.run env 10 program m.state = (.error (.used .running), m.state)) ∧
    (Interpreter.run env 10 program start).2.progress.depth = 0 := by
  intro line env program start
  obtain ⟨⟨hdepth, -, -⟩, -, -, hcourse⟩ := interpreter_lifecycle env 10 program {} () .empty ()
  have hcalled : Interpreter.Course env 10 program start
      ⟨.named .executor "go" [], 8, ⟨{}, (), ⟨⟨[]⟩, 2, 1, none, .shared, .running⟩, ()⟩⟩ := by
    refine .head .firstStatement (.head (.statementRule (by decide) rfl) ?_)
    exact .head .expression (.head (.expressionRule (by decide) rfl (by decide))
      (.single (.named rfl rfl rfl)))
  exact ⟨⟨_, hcalled, rfl, rfl, hcourse _ hcalled env 10 program⟩, hdepth⟩

/-- **A run that is left running, and one without a depth.**  A routine that wants to leave the
whole program does so, and the run that has called it does not even fail.  And a depth that is no
number at all is accepted as a limit: then no depth is known to be allowed, and the watcher is asked
all the same. -/
theorem run_left_running :
    let line : Line := .number 1
    let exit : Fault := .exit "SystemExit" ""
    let binding : Binding Unit := { Binding.still with
      invoke := fun _ _ _ _ _ h w => (.error exit, h, w) }
    let left := Interpreter.run (⟨binding, Config.default.limits, none, .null⟩ : Setting Unit Unit) 100
      [.expression (.reference .executor "quit" [] line) line] ⟨{}, (), .start .empty, ()⟩
    let nan : Float := Number.notANumber
    let config : Config := ⟨Config.defaultSteps, .float nan .shared, .null⟩
    let watcher : Watcher Unit (List Nat) :=
      fun _ _ p _ w depths => (.ok false, w, depths ++ [p.depth])
    let watched := Interpreter.run ⟨.still, config.limits, some watcher, .null⟩ 100
      [.expression (.ident "x" line) line] ⟨{}, (), .start .empty, []⟩
    (left.1 = .error exit ∧ left.2.progress.phase = .running) ∧
    (Config.make? config.maxSteps config.maxDepth config.timeout).toOption.isSome = true ∧
      watched.2.watch = [0, 1] ∧ Number.le (.int 0) (.float nan) = false ∧
      Number.le (.int 1) (.float nan) = false := by
  intro line exit binding left nan config watcher watched
  exact ⟨⟨rfl, rfl⟩, by decide +kernel, by decide +kernel, by decide +kernel, by decide +kernel⟩

end TriggerEngine
