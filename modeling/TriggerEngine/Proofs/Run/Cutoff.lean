/-
**Limits cut off, and do nothing else.**

A run counts its steps and its depth, and all that comes of the counts is that it is stopped where
one of them passes its limit.  So a program that is run twice, under some limits and under wider
ones, does the same in both runs up to the place where the first is stopped.  If it is not stopped
at all, the runs are one and the same; otherwise the second run goes on from the world in which the
first one ended, so what the first has written into a log stands at the beginning of the log of the
second.

A run that is cut off ends with a fault that says so.  The host may raise a fault that says the same
without any limit being met; but the host does not know in which words the limits are given.  So a
run is cut off if it ends with such a fault in whatever words the limits are given.

Main definitions:

* `Limits.Forbids` — the faults at nodes that are too much;
* `Setting.CutsOff` — runs that meet a limit;
* `Setting.Chronicles` — logs that the world outside only adds to;
* `Exec.Cut`, `Exec.Cuts` — a computation under narrow and under wide limits.

Main results:

* `Exec.Cuts.loop` — the rounds that a loop has under wider limits;
* `Exec.Cuts.pairing` — every part of a run is cut off or goes through;
* `Interpreter.run_cut` — a run is cut off or goes through;
* `Interpreter.run_under_wider` — **limits are cut-offs**.
-/

import TriggerEngine.Proofs.Run.Ending

set_option autoImplicit false

namespace TriggerEngine

variable {ω τ α β : Type}

/-! ### Limits and logs -/

namespace Limits

/-- The faults that a run makes at a node of a program because it is one too many or too deep. -/
inductive Forbids (limits : Limits) (program : Program) : Fault → Prop
  /-- Too many nodes were visited. -/
  | steps {node : Node} : node ∈ Node.nodesOf program →
      Forbids limits program (limits.stepFault node)
  /-- An expression or a block is nested too deeply. -/
  | depth {node : Node} {which : String → LimitCause} : which = .expression ∨ which = .block →
      node ∈ Node.nodesOf program →
      Forbids limits program (node.faultAt (.limit (which limits.depth.text)))

/-- The limits in other words. -/
def worded (limits : Limits) (steps depth : String) : Limits :=
  ⟨⟨limits.steps.most, steps⟩, ⟨limits.depth.most, depth⟩⟩

/-- Whether limits allow at least what others allow. -/
def Narrower (limits wider : Limits) : Prop :=
  limits.steps.most ≤ wider.steps.most ∧ limits.depth.most ≤ wider.depth.most

variable {limits : Limits} {program : Program} {fault : Fault}

theorem Forbids.eq_faultAt (h : limits.Forbids program fault) :
    ∃ (node : Node) (cause : Cause), fault = node.faultAt cause := by
  cases h with
  | steps _ => exact ⟨_, _, rfl⟩
  | depth _ _ => exact ⟨_, _, rfl⟩

theorem Forbids.isSignal (h : limits.Forbids program fault) : fault.isSignal = false := by
  obtain ⟨node, cause, rfl⟩ := h.eq_faultAt
  exact (node.isFor_faultAt cause).isSignal

end Limits

namespace Setting

/-- The setting with other limits. -/
def heldTo (env : Setting ω τ) (limits : Limits) : Setting ω τ :=
  env.under limits env.watcher

/-- Whether a run meets a limit: it ends at a node with a fault that says so, in whatever words the
limits are given. -/
def CutsOff (env : Setting ω τ) (room : Nat) (program : Program) (s : State ω τ) : Prop :=
  ∀ steps depth : String,
    let limits := env.limits.worded steps depth
    ∃ fault, (Interpreter.run (env.heldTo limits) room program s).1 = .error fault ∧
      limits.Forbids program fault

/-- A log that all that the host does, the globals that are set and the watcher only add to. -/
structure Chronicles {κ : Type} (env : Setting ω τ) (log : ω → List κ) : Prop where
  turn : ∀ {w w' : ω}, env.binding.Changes env.context w w' → log w <+: log w'
  write : ∀ (name : String) (v : Value) (w : ω), log w <+: log (env.binding.writeGlobal name v w)
  watch : ∀ {watcher : Watcher ω τ}, env.watcher = some watcher →
    ∀ (room : Nat) (node : Node) (p : Progress) (h : Heap) (w : ω) (t : τ),
      log w <+: log (watcher room node p h w t).2.1

variable {env : Setting ω τ}

theorem Reaches.trans {start w w' : ω} (h : env.Reaches start w) (h' : env.Reaches w w') :
    env.Reaches start w' := by
  induction h' with
  | start => exact h
  | turn hchange _ ih => exact .turn hchange ih
  | write name v _ ih => exact .write name v ih
  | watch room node p heap t hwatcher _ ih => exact .watch room node p heap t hwatcher ih

theorem Chronicles.of_reaches {κ : Type} {log : ω → List κ} (hlog : env.Chronicles log)
    {start w : ω} (h : env.Reaches start w) : log start <+: log w := by
  induction h with
  | start => exact List.prefix_refl _
  | turn hchange _ ih => exact ih.trans (hlog.turn hchange)
  | write name v _ ih => exact ih.trans (hlog.write name v _)
  | watch room node p heap t hwatcher _ ih => exact ih.trans (hlog.watch hwatcher room node p heap _ t)

end Setting

namespace Exec

/-! ### Computations under two limits -/

/-- How what a computation comes to under narrow limits stands to what it comes to under wide ones.
Either it is the same and within the steps, or it was cut off in a world from which the other goes
on. -/
inductive Cut (env : Setting ω τ) (program : Program) :
    Except Stop α × State ω τ → Except Stop α × State ω τ → Prop
  | same {result : Except Stop α} {s : State ω τ}
      (hmost : s.progress.steps ≤ env.limits.steps.most) : Cut env program (result, s) (result, s)
  | off {fault : Fault} {s s' : State ω τ} {result : Except Stop α}
      (hfault : env.limits.Forbids program fault) (hreach : env.Reaches s.world s'.world) :
      Cut env program (.error (.fault fault), s) (result, s')

/-- Two computations of which the first is the second, cut off by limits. -/
structure Cuts (env : Setting ω τ) (program : Program) (x₁ x₂ : Exec ω τ α) : Prop where
  cut : ∀ s, s.progress.steps ≤ env.limits.steps.most →
    Cut env program (x₁.runFrom s) (x₂.runFrom s)
  reaches : ∀ s, env.Reaches s.world (x₂.runFrom s).2.world

namespace Cuts

variable {env : Setting ω τ} {program : Program} {limits : Limits}

theorem of_same {x : Exec ω τ α} (hsteps : ∀ s, (x.runFrom s).2.progress.steps = s.progress.steps)
    (hreaches : ∀ s, env.Reaches s.world (x.runFrom s).2.world) : Cuts env program x x where
  cut s hmost := .same ((hsteps s).trans_le hmost)
  reaches := hreaches

theorem pure (a : α) : Cuts env program (Pure.pure a) (Pure.pure a) :=
  of_same (fun _ => rfl) fun _ => .start

theorem fail (fault : Fault) : Cuts env program (Exec.fail fault : Exec ω τ α) (Exec.fail fault) :=
  of_same (fun _ => rfl) fun _ => .start

theorem read {f₁ f₂ : State ω τ → Exec ω τ α} (h : ∀ s, Cuts env program (f₁ s) (f₂ s)) :
    Cuts env program (get >>= f₁) (get >>= f₂) where
  cut s := (h s).cut s
  reaches s := (h s).reaches s

theorem bind {x₁ x₂ : Exec ω τ α} {f₁ f₂ : α → Exec ω τ β} (hx : Cuts env program x₁ x₂)
    (hf : ∀ a, Cuts env program (f₁ a) (f₂ a)) : Cuts env program (x₁ >>= f₁) (x₂ >>= f₂) := by
  -- Wherever the second part starts, the other computation goes on from there.
  have hrest : ∀ s, env.Reaches (x₂.runFrom s).2.world ((x₂ >>= f₂).runFrom s).2.world := by
    intro s
    rcases hrun : x₂.runFrom s with ⟨stop | a, s'⟩
    · rw [runFrom_bind_of_error hrun]
      exact .start
    · rw [runFrom_bind_of_ok hrun]
      exact (hf a).reaches s'
  refine ⟨fun s hmost => ?_, fun s => (hx.reaches s).trans (hrest s)⟩
  have hcut := hx.cut s hmost
  have hrest := hrest s
  generalize hrun₁ : x₁.runFrom s = r₁ at hcut
  generalize hrun₂ : x₂.runFrom s = r₂ at hcut hrest
  cases hcut with
  | @same result s' hmost' =>
      cases result with
      | error stop =>
          rw [runFrom_bind_of_error hrun₁, runFrom_bind_of_error hrun₂]
          exact .same hmost'
      | ok a =>
          rw [runFrom_bind_of_ok hrun₁, runFrom_bind_of_ok hrun₂]
          exact (hf a).cut s' hmost'
  | off hfault hreach =>
      rw [runFrom_bind_of_error hrun₁]
      exact .off hfault (hreach.trans hrest)

theorem onWorld {f : Heap → ω → Except Fault α × Heap × ω}
    (h : ∀ heap w, env.Reaches w (f heap w).2.2) :
    Cuts env program (Exec.onWorld f) (Exec.onWorld f) := by
  refine of_same (fun ⟨heap, w, p, t⟩ => ?_) fun ⟨heap, w, p, t⟩ => ?_
  · rw [runFrom_onWorld]
  · rw [runFrom_onWorld]
    exact h heap w

theorem round {x₁ x₂ : Exec ω τ Unit} (hx : Cuts env program x₁ x₂) :
    Cuts env program (Exec.round x₁) (Exec.round x₂) := by
  refine ⟨fun s hmost => ?_, fun s => ?_⟩
  · have hcut := hx.cut s hmost
    rw [runFrom_round, runFrom_round]
    generalize x₁.runFrom s = r₁ at hcut
    generalize x₂.runFrom s = r₂ at hcut
    cases hcut with
    | same hmost' => exact .same hmost'
    | off hfault hreach =>
        dsimp only
        rw [heard_of_isSignal hfault.isSignal]
        exact .off hfault hreach
  · rw [runFrom_round]
    exact hx.reaches s

theorem deeper {node : Node} (hnode : node ∈ Node.nodesOf program)
    (hdepth : env.limits.depth.most ≤ limits.depth.most) {which : String → LimitCause}
    (hwhich : which = .expression ∨ which = .block) {x₁ x₂ : Exec ω τ α}
    (hx : Cuts env program x₁ x₂) :
    Cuts env program
      (Exec.deeper env.limits.depth.most
        (fun _ => node.faultAt (.limit (which env.limits.depth.text))) x₁)
      (Exec.deeper limits.depth.most
        (fun _ => node.faultAt (.limit (which limits.depth.text))) x₂) := by
  have hreaches : ∀ s, env.Reaches s.world
      ((Exec.deeper limits.depth.most (fun _ => node.faultAt (.limit (which limits.depth.text)))
        x₂).runFrom s).2.world := by
    intro ⟨h, w, p, t⟩
    rw [runFrom_deeper]
    dsimp only
    split
    · exact .start
    · exact hx.reaches ⟨h, w, { p with depth := p.depth + 1 }, t⟩
  refine ⟨fun ⟨h, w, p, t⟩ hmost => ?_, hreaches⟩
  have hreach := hreaches ⟨h, w, p, t⟩
  by_cases hlimit : env.limits.depth.most < p.depth + 1
  · rw [runFrom_deeper]
    dsimp only
    rw [if_pos hlimit]
    exact .off (.depth hwhich hnode) hreach
  · have hlimit' : ¬limits.depth.most < p.depth + 1 := by omega
    rw [runFrom_deeper, runFrom_deeper]
    dsimp only
    rw [if_neg hlimit, if_neg hlimit']
    have hcut := hx.cut ⟨h, w, { p with depth := p.depth + 1 }, t⟩ hmost
    generalize x₁.runFrom ⟨h, w, { p with depth := p.depth + 1 }, t⟩ = r₁ at hcut
    generalize x₂.runFrom ⟨h, w, { p with depth := p.depth + 1 }, t⟩ = r₂ at hcut
    cases hcut with
    | same hmost' => exact .same hmost'
    | off hfault hreach' => exact .off hfault hreach'

theorem visit {node : Node} {room : Nat} (hnode : node ∈ Node.nodesOf program)
    (hsteps : env.limits.steps.most ≤ limits.steps.most) :
    Cuts env program (Exec.visit env node room) (Exec.visit (env.heldTo limits) node room) := by
  have hreaches : ∀ s, env.Reaches s.world
      ((Exec.visit (env.heldTo limits) node room).runFrom s).2.world := by
    intro ⟨h, w, p, t⟩
    by_cases hlimit : limits.steps.most < p.steps + 1
    · rw [runFrom_visit_of_lt hlimit]
      exact .start
    · cases hwatcher : (env.heldTo limits).watcher with
      | none =>
          rw [runFrom_visit_none hlimit hwatcher]
          exact .start
      | some watcher =>
          rw [runFrom_visit_some hlimit hwatcher]
          exact .watch room node _ h t hwatcher .start
  refine ⟨fun ⟨h, w, p, t⟩ hmost => ?_, hreaches⟩
  by_cases hlimit : env.limits.steps.most < p.steps + 1
  · rw [runFrom_visit_of_lt hlimit]
    exact .off (.steps hnode) (hreaches ⟨h, w, p, t⟩)
  · have hlimit' : ¬(env.heldTo limits).limits.steps.most < p.steps + 1 := by
      have : (env.heldTo limits).limits.steps.most = limits.steps.most := rfl
      omega
    have hsame : (env.heldTo limits).watcher = env.watcher := rfl
    cases hwatcher : env.watcher with
    | none =>
        rw [runFrom_visit_none hlimit hwatcher, runFrom_visit_none hlimit' (hsame.trans hwatcher)]
        exact .same (Nat.not_lt.1 hlimit)
    | some watcher =>
        rw [runFrom_visit_some hlimit hwatcher, runFrom_visit_some hlimit' (hsame.trans hwatcher)]
        exact .same (Nat.not_lt.1 hlimit)

/-! ### Loops -/

section Loops

variable {step₁ step₂ : Nat → Exec ω τ Bool} (hstep : ∀ i, Cuts env program (step₁ i) (step₂ i))

include hstep

theorem reaches_loop (fuel : Nat) : ∀ i s,
    env.Reaches s.world ((Exec.loop step₂ fuel i).runFrom s).2.world := by
  induction fuel with
  | zero => exact fun _ _ => .start
  | succ fuel ih =>
      intro i s
      have hfirst := (hstep i).reaches s
      rw [Exec.loop]
      rcases hrun : (step₂ i).runFrom s with ⟨stop | goesOn, s'⟩
      · rw [runFrom_bind_of_error hrun]
        rwa [hrun] at hfirst
      · rw [runFrom_bind_of_ok hrun]
        rw [hrun] at hfirst
        cases goesOn with
        | false => exact hfirst
        | true => exact hfirst.trans (ih (i + 1) s')

/-- **More rounds do not change a loop that needs fewer.**  Under the narrow limits a loop has as
many rounds as there are steps left, and each of them takes a step; so it is cut off before it runs
out of rounds. -/
theorem loop (hgrows : ∀ i, Advances env.limits.steps.most (step₁ i)) (fuel : Nat) :
    ∀ fuel' i s, s.progress.steps ≤ env.limits.steps.most →
      env.limits.steps.most < s.progress.steps + fuel → fuel ≤ fuel' →
      Cut env program ((Exec.loop step₁ fuel i).runFrom s)
        ((Exec.loop step₂ fuel' i).runFrom s) := by
  induction fuel with
  | zero => intro fuel' i s hmost hfuel; omega
  | succ fuel ih =>
      intro fuel' i s hmost hfuel hle
      obtain ⟨fuel', rfl⟩ : ∃ n, fuel' = n + 1 := ⟨fuel' - 1, by omega⟩
      have hreach := reaches_loop hstep fuel' (i + 1)
      have hcut := (hstep i).cut s hmost
      rw [Exec.loop, Exec.loop]
      generalize hrun₁ : (step₁ i).runFrom s = r₁ at hcut
      generalize hrun₂ : (step₂ i).runFrom s = r₂ at hcut
      cases hcut with
      | @same result s' hmost' =>
          cases result with
          | error stop =>
              rw [runFrom_bind_of_error hrun₁, runFrom_bind_of_error hrun₂]
              exact .same hmost'
          | ok goesOn =>
              rw [runFrom_bind_of_ok hrun₁, runFrom_bind_of_ok hrun₂]
              cases goesOn with
              | false => exact .same hmost'
              | true =>
                  -- the round took a step, so the rounds left still reach beyond the limit
                  obtain ⟨hless, -⟩ := hgrows i s s' hmost hrun₁
                  exact ih fuel' (i + 1) s' hmost' (by omega) (by omega)
      | @off fault s₁ s₂ result hfault hworld =>
          -- the narrow loop is over, and the wide one may go on from where it was cut off
          rw [runFrom_bind_of_error hrun₁]
          cases result with
          | error stop =>
              rw [runFrom_bind_of_error hrun₂]
              exact .off hfault hworld
          | ok goesOn =>
              rw [runFrom_bind_of_ok hrun₂]
              cases goesOn with
              | false => exact .off hfault hworld
              | true => exact .off hfault (hworld.trans (hreach s₂))

theorem rounds (hsteps : env.limits.steps.most ≤ limits.steps.most)
    (hgrows : ∀ i, Advances env.limits.steps.most (step₁ i)) :
    Cuts env program (Exec.rounds env >>= fun fuel => Exec.loop step₁ fuel 0)
      (Exec.rounds (env.heldTo limits) >>= fun fuel => Exec.loop step₂ fuel 0) where
  cut s hmost := by
    refine loop hstep hgrows (env.limits.steps.most + 1 - s.progress.steps)
      (limits.steps.most + 1 - s.progress.steps) 0 s hmost ?_ ?_
    · omega
    · omega
  reaches s := reaches_loop hstep (limits.steps.most + 1 - s.progress.steps) 0 s

end Loops

section Bodies

variable (hsteps : env.limits.steps.most ≤ limits.steps.most) {body : Node} {room : Nat}
  (hbody : Cuts env program (Exec.nested env body room)
    (Exec.nested (env.heldTo limits) body room))

include hsteps hbody

theorem repetition {test : Node}
    (htest : Cuts env program (Exec.eval env test room)
      (Exec.eval (env.heldTo limits) test room)) :
    Cuts env program
      (Exec.rounds env >>= Exec.repeatWhile (Exec.holds env test room)
        (Exec.nested env body room))
      (Exec.rounds (env.heldTo limits) >>=
        Exec.repeatWhile (Exec.holds (env.heldTo limits) test room)
          (Exec.nested (env.heldTo limits) body room)) := by
  have hholds : Cuts env program (Exec.holds env test room)
      (Exec.holds (env.heldTo limits) test room) :=
    htest.bind fun v => bind (onWorld fun h w => .turn (.consult room _ h w) .start) fun _ =>
      read fun _ => pure _
  have hstep : ∀ _ : Nat, Cuts env program
      (Exec.holds env test room >>= fun holds =>
        if holds then Exec.round (Exec.nested env body room) else Pure.pure false)
      (Exec.holds (env.heldTo limits) test room >>= fun holds =>
        if holds then Exec.round (Exec.nested (env.heldTo limits) body room)
        else Pure.pure false) := by
    refine fun _ => hholds.bind fun holds => ?_
    cases holds with
    | false => exact pure false
    | true => exact hbody.round
  have hloop := rounds hstep hsteps fun _ => advances_test env test body room
  simpa only [← repeatWhile_eq_loop] using hloop

theorem items (name : Name) (id : Nat) :
    Cuts env program
      (Exec.rounds env >>= fun fuel =>
        Exec.forItems env room name id (Exec.nested env body room) fuel 0)
      (Exec.rounds (env.heldTo limits) >>= fun fuel =>
        Exec.forItems (env.heldTo limits) room name id (Exec.nested (env.heldTo limits) body room)
          fuel 0) := by
  simp only [Source.forItems_eq_loop]
  refine rounds (fun i => ?_) hsteps
    (Source.advances_round (takes_round_body env body room) room name (.sequence id))
  have hitem : Cuts env program ((Source.sequence id).item env room i)
      ((Source.sequence id).item (env.heldTo limits) room i) :=
    onWorld fun h w => .turn (.item room id i h w) .start
  refine hitem.bind fun item? => ?_
  cases item? with
  | none => exact pure false
  | some v =>
      exact bind (of_same (fun _ => rfl) fun _ => .start) fun _ => hbody.round

end Bodies

/-! ### Whole programs -/

/-- Every part of a run is cut off by narrower limits, or it is the same under them. -/
def pairing (hlimits : env.limits.Narrower limits) (program : Program) :
    Pairing env limits env.watcher where
  Rel _ x₁ x₂ := Cuts env program x₁ x₂
  Allows _ := True
  Holds node := node ∈ Node.nodesOf program
  strict := false
  blunt _ := trivial
  cause _ _ := trivial
  notWord _ _ := trivial
  loose _ _ _ := trivial
  pure := pure
  bind := bind
  read h := read fun s => h s.heap s.world s.progress s.watch s.watch
  fail _ := fail _
  leave := fail _
  next := fail _
  onHeap _ := of_same (fun _ => rfl) fun _ => .start
  setLocal _ _ := of_same (fun _ => rfl) fun _ => .start
  coolDown _ _ := of_same (fun _ => rfl) fun _ => .start
  onWorld hturn := onWorld fun h _ => hturn.keeps (fun hchange hw => .turn hchange hw) h .start
  store name v := onWorld fun _ _ => .write name v .start
  visit _ hnode _ := visit hnode hlimits.1
  deeper hwhich hnode hx := deeper hnode hlimits.2 hwhich hx
  round := round
  repetition htest hbody := repetition hlimits.1 hbody htest
  items name id _ _ hbody := items hlimits.1 hbody name id

end Cuts

end Exec

theorem Host.chronicles_calls (limits : Limits) (watcher? : Option (Watcher Host τ))
    (context : Value) (hwatch : ∀ watcher, watcher? = some watcher → ∀ room node p h w t,
      w.calls <:+ (watcher room node p h w t).2.1.calls) :
    Setting.Chronicles ⟨Host.binding, limits, watcher?, context⟩ fun host => host.calls.reverse where
  turn {w _} hchange :=
    List.reverse_prefix.2 (Seat.Keeps.changes (fun _ => keeps_calls w.calls) hchange
      (List.suffix_refl _))
  write _ _ _ := List.prefix_refl _
  watch hwatcher room node p h w t := List.reverse_prefix.2 (hwatch _ hwatcher room node p h w t)

/-! ### Runs -/

namespace Interpreter

variable (env : Setting ω τ) {limits : Limits}

/-- **A run is cut off or goes through.**  Under wider limits it goes on from the world to which it
comes; and it is the same run, unless it ends with a fault that says that a limit was met. -/
theorem run_cut (hlimits : env.limits.Narrower limits) (room : Nat) (program : Program)
    {s : State ω τ} (hidle : s.progress.phase = .idle)
    (hmost : s.progress.steps ≤ env.limits.steps.most) :
    env.Reaches (run env room program s).2.world
      (run (env.heldTo limits) room program s).2.world ∧
    (run (env.heldTo limits) room program s = run env room program s ∨
      ∃ fault, (run env room program s).1 = .error fault ∧
        env.limits.Forbids program fault) := by
  have hcuts : Exec.Cuts env program (Exec.execAll env program room)
      (Exec.execAll (env.heldTo limits) program room) :=
    (Exec.Cuts.pairing hlimits program).execAll program false nofun (fun _ hnode => hnode) room
  have hcut := hcuts.cut (inPhase .running s) hmost
  rw [run_of_idle hidle, run_of_idle hidle]
  generalize (Exec.execAll env program room).runFrom (inPhase .running s) = r at hcut
  generalize (Exec.execAll (env.heldTo limits) program room).runFrom (inPhase .running s) = r'
    at hcut
  obtain ⟨phase, hphase⟩ := concluded_progress r
  obtain ⟨phase', hphase'⟩ := concluded_progress r'
  rw [hphase, hphase']
  cases hcut with
  | same hmost' => exact ⟨.start, .inl rfl⟩
  | @off fault _ _ _ hfault hreach =>
      refine ⟨hreach, .inr ⟨fault, ?_, hfault⟩⟩
      obtain ⟨node, cause, rfl⟩ := hfault.eq_faultAt
      exact congrArg Except.error (surfaced_faultAt node cause)

variable {env} in
theorem run_of_not_cutsOff (hlimits : env.limits.Narrower limits) {room : Nat} {program : Program}
    {s : State ω τ} (hidle : s.progress.phase = .idle)
    (hmost : s.progress.steps ≤ env.limits.steps.most) (h : ¬env.CutsOff room program s) :
    run (env.heldTo limits) room program s = run env room program s := by
  simp only [Setting.CutsOff, not_forall] at h
  obtain ⟨steps, depth, hends⟩ := h
  have hcut : ∀ {wider : Limits}, env.limits.Narrower wider →
      run (env.heldTo wider) room program s =
        run (env.heldTo (env.limits.worded steps depth)) room program s := by
    intro wider hwider
    have hcut := run_cut (env.heldTo (env.limits.worded steps depth)) hwider room program hidle hmost
    exact hcut.2.resolve_right hends
  exact (hcut hlimits).trans (hcut ⟨Nat.le_refl _, Nat.le_refl _⟩).symm

/-- **Limits are cut-offs.**  A program is run under some limits and under wider ones, in the same
setting and from the same start.  If the first run meets no limit, the second comes to the same
result in the same state; and in any case a log that is only added to outside of the run is, after
the first run, a first part of what it is after the second. -/
theorem run_under_wider (limits : Limits)
    (hsteps : env.limits.steps.most ≤ limits.steps.most)
    (hdepth : env.limits.depth.most ≤ limits.depth.most) (room : Nat) (program : Program)
    (h : Heap) (w : ω) (locals : Table Value) (t : τ) :
    let s : State ω τ := ⟨h, w, .start locals, t⟩
    (¬env.CutsOff room program s →
      run (env.heldTo limits) room program s = run env room program s) ∧
    ∀ {κ : Type} (log : ω → List κ), env.Chronicles log →
      log (run env room program s).2.world <+:
        log (run (env.heldTo limits) room program s).2.world := by
  intro s
  refine ⟨run_of_not_cutsOff ⟨hsteps, hdepth⟩ rfl (Nat.zero_le _), fun log hlog => ?_⟩
  exact hlog.of_reaches (run_cut env ⟨hsteps, hdepth⟩ room program rfl (Nat.zero_le _)).1

/-- A program that calls an executor twice.  Three steps are enough for the first call only, and a
fourth one for both; then nothing changes any more. -/
theorem run_under_wider_calls :
    let host : Host :=
      { routines := #[⟨"executor", "ping", Routine.constant .null⟩]
        executors := ⟨.role .executor, ⟨[("ping", .routine 0 .direct)]⟩⟩ }
    let within (steps : Int) : Limits := Config.limits ⟨.whole steps, .whole 16, .null⟩
    let env (steps : Int) : Setting Host Unit := ⟨Host.binding, within steps, none, .null⟩
    let line : Line := .number 1
    let ping : Node := .expression (.reference .executor "ping" [] line) line
    let start : State Host Unit := ⟨{}, host, .start .empty, ()⟩
    let ran (steps : Int) := run (env steps) 100 [ping, ping] start
    ((within 3).steps.most ≤ (within 9).steps.most ∧ (within 3).depth.most ≤ (within 9).depth.most ∧
      (ran 3).2.world.calls.length = 1 ∧ (ran 9).2.world.calls.length = 2 ∧
      (ran 3).2.world.calls.reverse <+: (ran 9).2.world.calls.reverse) ∧
    ((within 4).steps.most ≤ (within 9).steps.most ∧ ¬(env 4).CutsOff 100 [ping, ping] start ∧
      ran 9 = ran 4) := by
  intro host within env line ping start ran
  have hlog := Host.chronicles_calls (τ := Unit) (within 3) none .null nofun
  refine ⟨⟨by decide, by decide, by decide +kernel, by decide +kernel, ?_⟩, by decide, ?_⟩
  · exact (run_under_wider (env 3) (within 9) (by decide) (by decide) 100 [ping, ping] {} host .empty
      ()).2 _ hlog
  · have hends : ¬(env 4).CutsOff 100 [ping, ping] start := by
      intro hcut
      obtain ⟨fault, hfault, -⟩ := hcut "" ""
      have hok : (run ((env 4).heldTo ((within 4).worded "" "")) 100 [ping, ping] start).1.isOk =
          true := by decide +kernel
      rw [hfault] at hok
      cases hok
    exact ⟨hends, (run_under_wider (env 4) (within 9) (by decide) (by decide) 100 [ping, ping] {}
      host .empty ()).1 hends⟩

end Interpreter

end TriggerEngine
