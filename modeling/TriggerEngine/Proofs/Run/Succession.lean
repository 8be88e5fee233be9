/-
**What comes after what.**

The course of a run tells what its tasks lead into, and nothing about the order in which that comes.
The order is made by statements that follow one another and by the rounds of loops: there a task
leads into a statement and, when that is done, into what is left.  All that belongs to the statement
comes before all that belongs to the rest.

If a property is such that no part of a run can end it, then what has it once has it from then on:
when a statement has left it behind, it holds at every later moment, and when the run is over.

Main definitions:

* `Exec.Sequel` — a task leads into a statement and, when that is done, into the rest;
* `Interpreter.Precedes` — one moment of a run comes after what another one belongs to is done;
* `Exec.Stable` — properties of states that no part of a run ends;
* `Moment.Leaves` — a statement or a loop leaves a state with some property behind.

Main results:

* `Exec.Leads.leaves` — a task leaves behind what a part of it does;
* `Exec.Tracking.of_precedes` — **what a statement has left behind holds at every later moment**;
* `Exec.Tracking.of_course` — and when the run is over.
-/

import TriggerEngine.Proofs.Run.Dependence
import TriggerEngine.Proofs.Run.Tracking

set_option autoImplicit false

namespace TriggerEngine

variable {ω τ α β : Type}

/-! ### The order of a run -/

/-- A task leads into a statement and, when that is done, into what is left of the task. -/
inductive Exec.Sequel (env : Setting ω τ) : Moment ω τ → Moment ω τ → Moment ω τ → Prop
  | statements {node : Node} {rest : List Node} {room : Nat} {s s' : State ω τ} :
      (exec env node room).runFrom s = (.ok (), s') →
      Sequel env ⟨.statements (node :: rest), room, s⟩ ⟨.statement node, room, s⟩
        ⟨.statements rest, room, s'⟩
  | repetition {test body : Node} {room : Nat} {s s' s'' : State ω τ} :
      (holds env test (room + 1)).runFrom s = (.ok true, s') →
      (round (exec env body room)).runFrom s' = (.ok true, s'') →
      Sequel env ⟨.repetition test body, room + 1, s⟩ ⟨.statement body, room, s'⟩
        ⟨.repetition test body, room + 1, s''⟩
  | iteration {name : Name} {source : Source} {body : Node} {i room : Nat}
      {s s' s'' s''' : State ω τ} {v : Value} :
      (source.item env (room + 1) i).runFrom s = (.ok (some v), s') →
      (setLocal name v).runFrom s' = (.ok (), s'') →
      (round (exec env body room)).runFrom s'' = (.ok true, s''') →
      Sequel env ⟨.iteration name source body i, room + 1, s⟩ ⟨.statement body, room, s''⟩
        ⟨.iteration name source body (i + 1), room + 1, s'''⟩

/-- Whether a moment of a run comes when the statement that another one belongs to is done. -/
def Interpreter.Precedes (env : Setting ω τ) (room : Nat) (program : Program) (s : State ω τ)
    (m m' : Moment ω τ) : Prop :=
  ∃ whole first next, Course env room program s whole ∧ Exec.Sequel env whole first next ∧
    Relation.ReflTransGen (Exec.Leads env) first m ∧ Relation.ReflTransGen (Exec.Leads env) next m'

namespace Exec.Sequel

variable {env : Setting ω τ} {whole first next : Moment ω τ}

theorem leads_first (h : Sequel env whole first next) : Leads env whole first := by
  cases h with
  | statements _ => exact .firstStatement
  | repetition htest _ => exact .repetitionBody htest
  | iteration hitem hset _ => exact .iterationBody hitem hset

theorem leads_next (h : Sequel env whole first next) : Leads env whole next := by
  cases h with
  | statements hrun => exact .laterStatements hrun
  | repetition htest hround => exact .repetitionAgain htest hround
  | iteration hitem hset hround =>
      refine .iterationAgain ?_
      rw [Source.round, runFrom_bind_of_ok hitem]
      dsimp only
      rw [runFrom_bind_of_ok hset]
      exact hround

end Exec.Sequel

theorem Interpreter.Precedes.course {env : Setting ω τ} {room : Nat} {program : Program}
    {s : State ω τ} {m m' : Moment ω τ} (h : Precedes env room program s m m') :
    Course env room program s m ∧ Course env room program s m' := by
  obtain ⟨whole, first, next, hcourse, hsequel, hfirst, hnext⟩ := h
  exact ⟨(hcourse.tail hsequel.leads_first).trans hfirst,
    (hcourse.tail hsequel.leads_next).trans hnext⟩

/-! ### Properties that no part of a run ends -/

namespace Exec

/-- Whether a computation keeps a property of states, whatever it comes to. -/
def Keeps (P : State ω τ → Prop) (x : Exec ω τ α) : Prop :=
  ∀ s, P s → P (x.runFrom s).2

variable {P : State ω τ → Prop}

theorem Keeps.after {x : Exec ω τ α} {f : α → Exec ω τ β} {s : State ω τ}
    (hx : P (x.runFrom s).2)
    (hf : ∀ a s', x.runFrom s = (.ok a, s') → P s' → P ((f a).runFrom s').2) :
    P ((x >>= f).runFrom s).2 := by
  rcases hrun : x.runFrom s with ⟨stop | a, s'⟩
  · rw [hrun] at hx
    rw [runFrom_bind_of_error hrun]
    exact hx
  · rw [hrun] at hx
    rw [runFrom_bind_of_ok hrun]
    exact hf a s' hrun hx

theorem Keeps.bind {x : Exec ω τ α} {f : α → Exec ω τ β} (hx : Keeps P x)
    (hf : ∀ a, Keeps P (f a)) : Keeps P (x >>= f) :=
  fun s hs => after (hx s hs) fun a s' _ => hf a s'

theorem Keeps.afterRound {step : Nat → Exec ω τ Bool} {fuel i : Nat} {s : State ω τ}
    (hfirst : P ((step i).runFrom s).2) (hlater : Keeps P (Exec.loop step fuel (i + 1))) :
    P ((Exec.loop step (fuel + 1) i).runFrom s).2 := by
  rw [Exec.loop]
  refine after hfirst fun goesOn s' _ hs => ?_
  cases goesOn with
  | false => exact hs
  | true => exact hlater s' hs

theorem Keeps.loop {step : Nat → Exec ω τ Bool} (hstep : ∀ i, Keeps P (step i)) (fuel : Nat) :
    ∀ i, Keeps P (Exec.loop step fuel i) := by
  induction fuel with
  | zero => exact fun _ _ hs => hs
  | succ fuel ih => exact fun i s hs => afterRound (hstep i s hs) (ih (i + 1))

/-- A round of a loop with a test. -/
def testRound (env : Setting ω τ) (test body : Node) (room : Nat) : Exec ω τ Bool :=
  holds env test room >>= fun holds => if holds then round (nested env body room) else pure false

/-- A property of states that no part of a run ends. -/
structure Stable (env : Setting ω τ) (P : State ω τ → Prop) : Prop where
  statements : ∀ nodes room, Keeps P (execAll env nodes room)
  testRound : ∀ test body room, Keeps P (testRound env test body room)
  sourceRound : ∀ (name : Name) (source : Source) body room i,
    Keeps P (source.round env room name (nested env body room) i)
  lifted : ∀ s, P s → P s.lifted

/-- Whether a loop leaves a state with some property behind if there are rounds for all the steps
that are left. -/
def LeavesLoop (most : Nat) (P : State ω τ → Prop) (step : Nat → Exec ω τ Bool) (i : Nat)
    (s : State ω τ) : Prop :=
  s.progress.steps ≤ most →
    ∀ fuel, most < s.progress.steps + fuel → P ((loop step fuel i).runFrom s).2

namespace LeavesLoop

variable {most : Nat} {step : Nat → Exec ω τ Bool} {i : Nat} {s s' : State ω τ}

theorem of_first (hstep : ∀ i, Keeps P (step i)) (hfirst : P ((step i).runFrom s).2) :
    LeavesLoop most P step i s := by
  intro hs fuel hfuel
  cases fuel with
  | zero => omega
  | succ fuel => exact Keeps.afterRound hfirst (.loop hstep fuel (i + 1))

theorem of_again (hgrows : Advances most (step i)) (hrun : (step i).runFrom s = (.ok true, s'))
    (hagain : LeavesLoop most P step (i + 1) s') : LeavesLoop most P step i s := by
  intro hs fuel hfuel
  cases fuel with
  | zero => omega
  | succ fuel =>
      obtain ⟨hless, hs'⟩ := hgrows s s' hs hrun
      rw [loop, runFrom_bind_of_ok hrun]
      exact hagain hs' fuel (by omega)

end LeavesLoop

end Exec

/-- Whether a statement or a loop leaves a state with some property behind.  Of a statement that has
been visited, and of a loop, that is asked only within the number of steps: beyond it a loop would
not have rounds enough, and a run does not come there. -/
def Moment.Leaves (env : Setting ω τ) (P : State ω τ → Prop) (m : Moment ω τ) : Prop :=
  match m.task with
  | .statements nodes => P ((Exec.execAll env nodes m.room).runFrom m.state).2
  | .statement node => P ((Exec.exec env node m.room).runFrom m.state).2
  | .execution node =>
    m.state.progress.steps ≤ env.limits.steps.most →
      P ((Exec.execute env node m.room).runFrom m.state).2
  | .repetition test body =>
    ∀ i, Exec.LeavesLoop env.limits.steps.most P (fun _ => Exec.testRound env test body m.room) i
      m.state
  | .iteration name source body i =>
    Exec.LeavesLoop env.limits.steps.most P (source.round env m.room name (Exec.nested env body m.room))
      i m.state
  | _ => False

namespace Exec

variable {env : Setting ω τ} {P : State ω τ → Prop} {m m' : Moment ω τ}

theorem steps_le_of_visit {node : Node} {room : Nat} {s s' : State ω τ}
    (h : (visit env node room).runFrom s = (.ok (), s')) :
    s'.progress.steps ≤ env.limits.steps.most := by
  obtain ⟨heap, w, p, t⟩ := s
  by_cases hlimit : env.limits.steps.most < p.steps + 1
  · rw [runFrom_visit_of_lt hlimit] at h
    cases h
  · cases hwatcher : env.watcher with
    | none =>
        rw [runFrom_visit_none hlimit hwatcher] at h
        cases h
        exact Nat.not_lt.1 hlimit
    | some watcher =>
        rw [runFrom_visit_some hlimit hwatcher] at h
        obtain rfl := congrArg Prod.snd h
        exact Nat.not_lt.1 hlimit

theorem Leads.leaves (hP : Stable env P) (h : Leads env m m') (hm' : m'.Leaves env P) :
    m.Leaves env P := by
  cases h with
  -- In each case the computation of the task is brought into the form in which that of the part, or
  -- its state at the end, can be seen.
  | firstStatement => exact Keeps.after hm' fun _ s' _ => hP.statements _ _ s'
  | @laterStatements node rest room s s' hrun =>
      show P ((exec env node room >>= fun _ => execAll env rest room).runFrom s).2
      rw [runFrom_bind_of_ok hrun]
      exact hm'
  | @statementRule node room s s' hroom hvisit =>
      show P ((begin env node room (execute env node)).runFrom s).2
      rw [begin, if_neg (by simpa using hroom), runFrom_bind_of_ok hvisit]
      exact hm' (steps_le_of_visit hvisit)
  | @consequence test body otherwise line room s s' htest =>
      intro _
      show P ((execute env (.conditional test body otherwise line) (room + 1)).runFrom s).2
      cases otherwise with
      | none =>
          rw [execute_conditional, runFrom_bind_of_ok htest]
          exact hm'
      | some _ =>
          rw [execute_conditional_some, runFrom_bind_of_ok htest]
          exact hm'
  | @alternative test body otherwise line room s s' htest =>
      intro _
      show P ((execute env (.conditional test body (some otherwise) line) (room + 1)).runFrom s).2
      rw [execute_conditional_some, runFrom_bind_of_ok htest]
      exact hm'
  | @block body line room s hdepth =>
      intro _
      show P ((execute env (.block body line) (room + 2)).runFrom s).2
      rw [execute, enterBlock, within, runFrom_deeper_of_not_lt hdepth, within]
      exact hP.lifted _ hm'
  | @repetition test body line room s =>
      intro hs
      change s.progress.steps ≤ env.limits.steps.most at hs
      show P ((repeatWhile (holds env test room) (nested env body room)
        (env.limits.steps.most + 1 - s.progress.steps)).runFrom s).2
      rw [repeatWhile_eq_loop _ _ _ 0]
      exact hm' 0 hs _ (show _ < s.progress.steps + _ by omega)
  | @iteration name source body line room s s' from' hsource =>
      intro hs
      obtain ⟨-, hs'⟩ := takes_ofValue env source line room s from' s' hs hsource
      obtain ⟨fuel, hfuel, heach⟩ := Source.exists_runFrom_each from' s'
      show P ((execute env (.iteration name source none body line) room).runFrom s).2
      rw [execute_iteration, runFrom_bind_of_ok hsource, heach]
      exact hm' hs' fuel hfuel
  | @range name source bound body line room s s' from' hsource =>
      intro hs
      obtain ⟨-, hs'⟩ := takes_ofBounds env source bound line room s from' s' hs hsource
      obtain ⟨fuel, hfuel, heach⟩ := Source.exists_runFrom_each from' s'
      show P ((execute env (.iteration name source (some bound) body line) room).runFrom s).2
      rw [execute_iteration_some, runFrom_bind_of_ok hsource, heach]
      exact hm' hs' fuel hfuel
  | @repetitionBody test body room s s' htest =>
      refine fun i => .of_first (fun _ => hP.testRound test body (room + 1)) ?_
      rw [testRound, runFrom_bind_of_ok htest, if_pos rfl, runFrom_round]
      exact hm'
  | @repetitionAgain test body room s s' s'' htest hround =>
      refine fun i => .of_again (advances_test env test body room) ?_ (hm' (i + 1))
      rw [testRound, runFrom_bind_of_ok htest, if_pos rfl]
      exact hround
  | @iterationBody name source body i room s s' s'' v hitem hset =>
      refine .of_first (hP.sourceRound name source body (room + 1)) ?_
      rw [Source.round, runFrom_bind_of_ok hitem]
      dsimp only
      rw [runFrom_bind_of_ok hset, runFrom_round]
      exact hm'
  | iterationAgain hround =>
      exact .of_again (Source.advances_round (takes_round_body env _ _) _ _ _ _) hround hm'
  | _ => exact False.elim hm'

theorem leaves_of_reflTransGen (hP : Stable env P) (h : Relation.ReflTransGen (Leads env) m m')
    (hm' : m'.Leaves env P) : m.Leaves env P := by
  induction h using Relation.ReflTransGen.head_induction_on with
  | refl => exact hm'
  | head hleads _ ih => exact hleads.leaves hP ih

theorem snd_runFrom_round (body : Exec ω τ Unit) (s : State ω τ) :
    ((round body).runFrom s).2 = (body.runFrom s).2 := by
  rw [runFrom_round]

theorem Sequel.leaves {whole first next : Moment ω τ} (h : Sequel env whole first next)
    (hfirst : first.Leaves env P) : P next.state := by
  cases h with
  | @statements node rest room s s' hrun =>
      have hend : P ((exec env node room).runFrom s).2 := hfirst
      rw [hrun] at hend
      exact hend
  | @repetition test body room s s₁ s₂ htest hround =>
      have hend : P ((exec env body room).runFrom s₁).2 := hfirst
      rw [← snd_runFrom_round, hround] at hend
      exact hend
  | @iteration name source body i room s s₁ s₂ s₃ v hitem hset hround =>
      have hend : P ((exec env body room).runFrom s₂).2 := hfirst
      rw [← snd_runFrom_round, hround] at hend
      exact hend

/-! ### Trackings -/

namespace Tracking

variable {S : Scene ω} {watcher : Watcher ω τ} {I : ω → Progress → τ → Prop}
  (T : Tracking S watcher watcher id I)

include T

theorem keeps : T.coupling.pairing.Keeps fun s => I s.world s.progress s.watch where
  loose := rfl
  holds _ := trivial
  keeps {_ _ x₁ x₂} h {s a s'} hs hrun := by
    obtain ⟨hkeeps, hsame⟩ := h s hs
    obtain rfl : s' = _ := congrArg Prod.snd (hrun.symm.trans hsame)
    exact hkeeps
  deepened _ hs := T.depth _ hs

theorem stable : Stable (S.watched (some watcher)) fun s => I s.world s.progress s.watch where
  statements nodes room s hs := (T.coupling.execAll nodes false nofun room s hs).1
  testRound test body room := by
    refine .bind (fun s hs => (T.keeps.test test room s hs).1) fun holds => ?_
    cases holds with
    | false => exact fun _ hs => hs
    | true => exact fun s hs => (T.keeps.round body room s hs).1
  sourceRound name source body room i := by
    have hitem : T.coupling.pairing.Rel false _ _ := T.coupling.pairing.item room source i
    refine .bind (fun s hs => (hitem s hs).1) fun v? => ?_
    cases v? with
    | none => exact fun _ hs => hs
    | some v =>
        refine .bind (fun s hs => T.locals _ hs) fun _ s hs => ?_
        exact (T.keeps.round body room s hs).1
  lifted s hs := T.depth _ hs

/-- **What a statement has left behind holds at every later moment.** -/
theorem of_precedes {room : Nat} {program : Program} {s : State ω τ} {m m' : Moment ω τ}
    (h : Interpreter.Precedes (S.watched (some watcher)) room program s m m')
    (hm : m.Leaves (S.watched (some watcher)) fun s => I s.world s.progress s.watch) :
    I m'.state.world m'.state.progress m'.state.watch := by
  obtain ⟨whole, first, next, -, hsequel, hfirst, hnext⟩ := h
  have hstart := hsequel.leaves (leaves_of_reflTransGen T.stable hfirst hm)
  clear hsequel
  induction hnext with
  | refl => exact hstart
  | tail _ hleads ih => exact hleads.keeps T.keeps ih

/-- **What a statement has left behind is there when the run is over.** -/
theorem of_course {room : Nat} {program : Program} {s : State ω τ} {m : Moment ω τ}
    (h : Interpreter.Course (S.watched (some watcher)) room program s m)
    (hidle : s.progress.phase = .idle)
    (hm : m.Leaves (S.watched (some watcher)) fun s => I s.world s.progress s.watch) :
    let s' := (Interpreter.run (S.watched (some watcher)) room program s).2
    I s'.world s'.progress s'.watch := by
  have hall := leaves_of_reflTransGen T.stable h hm
  rw [Interpreter.run_of_idle hidle]
  obtain ⟨phase, hphase⟩ := Interpreter.concluded_progress
    ((execAll (S.watched (some watcher)) program room).runFrom (Interpreter.inPhase .running s))
  rw [hphase]
  exact T.phase phase hall

end Tracking

end Exec

end TriggerEngine
