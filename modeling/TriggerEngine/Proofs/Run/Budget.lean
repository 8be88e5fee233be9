/-
**What a run spends.**

A run is given a number of steps, and every node that it visits takes one of them.  Whatever a part
of a run does, it stays within the number, or it ends at the node where the number is passed, with
the fault that says so: no loop listens to that fault, so nothing comes after it.  The other way
round, a run that ends with such a fault has passed the number, unless the fault was made outside.

The watcher is asked at every visit within the number.  A watcher that counts its calls is not
noticed, and its count is the number of steps, up to the limit.

Main definitions:

* `Limits.stepFault` — the fault at the node where the number of steps is passed;
* `Exec.Spent`, `Exec.Spends` — how a computation stands that was given steps;
* `Watcher.counted` — a watcher that counts its calls.

Main results:

* `Exec.Spends.coupling` — every part of a run keeps to its steps;
* `Exec.spends_eval`, `Exec.spends_begin` — a node that is visited takes a step;
* `Interpreter.run_spends` — **a run keeps to its steps**;
* `Interpreter.run_counted` — **the calls of the watcher are the steps**, up to the limit.
-/

import TriggerEngine.Proofs.Run.Safety
import TriggerEngine.Proofs.Run.Tracking

set_option autoImplicit false

namespace TriggerEngine

variable {ω τ α β : Type}

/-- The fault with which a run ends at the node where it passes the number of its steps. -/
def Limits.stepFault (limits : Limits) (node : Node) : Fault :=
  node.faultAt (.limit (.steps limits.steps.text))

theorem Limits.isSignal_stepFault (limits : Limits) (node : Node) :
    (limits.stepFault node).isSignal = false :=
  (node.isFor_faultAt _).isSignal

/-- A fault that says that too many nodes were visited, or one that nobody catches, was made
outside. -/
def Setting.Disowns (env : Setting ω τ) (start : ω) (fault : Fault) : Prop :=
  fault.isFinal = true → env.Raises start fault

theorem Setting.disowns_of_isFinal {env : Setting ω τ} {start : ω} {fault : Fault}
    (h : fault.isFinal = false) : env.Disowns start fault := by
  intro hfinal
  rw [h] at hfinal
  cases hfinal

theorem Setting.disowns_of_isOrdinary {env : Setting ω τ} {start : ω} {fault : Fault}
    (h : fault.isOrdinary = true) : env.Disowns start fault :=
  disowns_of_isFinal (Fault.isOrdinary_iff.1 h).2.2

namespace Exec

/-- How a computation stands that has come to a result.  Either it is within its steps, and at least
at `least` if something is left to do, or it has ended at a node where it passed them. -/
inductive Spent (env : Setting ω τ) (start : ω) (strict : Bool) (least : Nat) :
    Except Stop α × State ω τ → Prop
  | kept {result : Except Stop α} {s : State ω τ} (hreach : env.Reaches start s.world)
      (hleast : goesOn result = true → least ≤ s.progress.steps)
      (hmost : s.progress.steps ≤ env.limits.steps.most)
      (hfault : ∀ fault, result = .error (.fault fault) → env.Disowns start fault) :
      Spent env start strict least (result, s)
  | passed {s : State ω τ} (node : Node) (hnode : strict = true → node.IsWellFormed)
      (hsteps : s.progress.steps = env.limits.steps.most + 1) :
      Spent env start strict least (.error (.fault (env.limits.stepFault node)), s)

/-- A computation that keeps to the steps of a run and takes at least `least` of them, if it leaves
something to do. -/
def Spends (env : Setting ω τ) (start : ω) (strict : Bool) (least : Nat) (x : Exec ω τ α) : Prop :=
  ∀ s, env.Reaches start s.world → s.progress.steps ≤ env.limits.steps.most →
    Spent env start strict (s.progress.steps + least) (x.runFrom s)

section Spending

variable {env : Setting ω τ} {start : ω} {strict : Bool} {least : Nat}

theorem Spent.mono {m n : Nat} (hmn : m ≤ n) {r : Except Stop α × State ω τ}
    (h : Spent env start strict n r) : Spent env start strict m r := by
  cases h with
  | kept hreach hleast hmost hfault =>
      exact .kept hreach (fun hgoes => hmn.trans (hleast hgoes)) hmost hfault
  | passed node hnode hsteps => exact .passed node hnode hsteps

namespace Spends

theorem of_ok {x : Exec ω τ α} (h : ∀ s, ∃ a s', x.runFrom s = (.ok a, s') ∧ s'.world = s.world ∧
    s'.progress.steps = s.progress.steps) : Spends env start strict 0 x := by
  intro s hreach hmost
  obtain ⟨a, s', hrun, hworld, hsteps⟩ := h s
  rw [hrun]
  exact .kept (hworld ▸ hreach) (fun _ => hsteps.ge) (hsteps ▸ hmost) nofun

theorem fail {fault : Fault} (h : env.Disowns start fault) :
    Spends env start strict 0 (Exec.fail fault : Exec ω τ α) := by
  intro s hreach hmost
  refine .kept hreach (fun _ => Nat.le_refl _) hmost fun raised hraised => ?_
  cases hraised
  exact h

theorem bind {x : Exec ω τ α} {f : α → Exec ω τ β} (hx : Spends env start strict least x)
    (hf : ∀ a, Spends env start strict 0 (f a)) : Spends env start strict least (x >>= f) := by
  intro s hreach hmost
  have hspent := hx s hreach hmost
  generalize hrun : x.runFrom s = r at hspent
  cases hspent with
  | @kept result s' hreach' hleast hmost' hfault =>
      cases result with
      | ok a =>
          rw [runFrom_bind_of_ok hrun]
          exact (hf a s' hreach' hmost').mono (hleast rfl)
      | error stop =>
          rw [runFrom_bind_of_error hrun]
          refine .kept hreach' (fun hgoes => hleast (goesOn_error.trans hgoes)) hmost' ?_
          rintro fault ⟨⟩
          exact hfault fault rfl
  | passed node hnode hsteps =>
      rw [runFrom_bind_of_error hrun]
      exact .passed node hnode hsteps

theorem onWorld {f : Heap → ω → Except Fault α × Heap × ω}
    (hf : Replies env start (env.Disowns start) f) :
    Spends env start strict 0 (Exec.onWorld f : Exec ω τ α) := by
  intro ⟨h, w, p, t⟩ hreach hmost
  obtain ⟨hreach', hfaults⟩ := hf h w hreach
  rw [runFrom_onWorld]
  exact .kept hreach' (fun _ => Nat.le_refl _) hmost fun fault hfault =>
    hfaults fault (error_of_mapError hfault)

theorem noRoom : Spends env start strict least (Exec.noRoom : Exec ω τ α) := by
  intro s hreach hmost
  refine .kept hreach nofun hmost fun fault hfault => ?_
  cases hfault
  exact Setting.disowns_of_isOrdinary rfl

theorem mono {m n : Nat} (hmn : m ≤ n) {x : Exec ω τ α} (hx : Spends env start strict n x) :
    Spends env start strict m x :=
  fun s hreach hmost => (hx s hreach hmost).mono (Nat.add_le_add_left hmn _)

theorem withRoom {c : Prop} [Decidable c] {x : Exec ω τ α} (hx : Spends env start strict least x) :
    Spends env start strict least (if c then Exec.noRoom >>= fun _ : PUnit => x else x) := by
  split
  · exact bind noRoom fun _ => hx.mono (Nat.zero_le _)
  · exact hx

theorem deeper {most : Nat} {limit : Unit → Fault} {x : Exec ω τ α}
    (hlimit : env.Disowns start (limit ())) (hsignal : 0 < least → (limit ()).isSignal = false)
    (hx : Spends env start strict least x) :
    Spends env start strict least (Exec.deeper most limit x) := by
  intro ⟨h, w, p, t⟩ hreach hmost
  rw [runFrom_deeper]
  dsimp only
  split
  · refine .kept hreach (fun hgoes => ?_) hmost fun fault hfault => ?_
    · rcases Nat.eq_zero_or_pos least with rfl | hpos
      · exact Nat.le_refl _
      · rw [goesOn, hsignal hpos] at hgoes
        cases hgoes
    · cases hfault
      exact hlimit
  · have hspent := hx ⟨h, w, { p with depth := p.depth + 1 }, t⟩ hreach hmost
    generalize x.runFrom ⟨h, w, { p with depth := p.depth + 1 }, t⟩ = r at hspent
    cases hspent with
    | kept hreach' hleast hmost' hfault => exact .kept hreach' hleast hmost' hfault
    | passed node hnode hsteps => exact .passed node hnode hsteps

theorem round {x : Exec ω τ Unit} (hx : Spends env start strict least x) :
    Spends env start strict least (Exec.round x) := by
  intro s hreach hmost
  have hspent := hx s hreach hmost
  rw [runFrom_round]
  generalize x.runFrom s = r at hspent
  cases hspent with
  | kept hreach' hleast hmost' hfault =>
      exact .kept hreach' (fun hgoes => hleast (goesOn_of_heard hgoes)) hmost'
        fun fault hheard => hfault fault (error_of_heard hheard)
  | passed node hnode hsteps =>
      dsimp only
      rw [heard_of_isSignal (env.limits.isSignal_stepFault node)]
      exact .passed node hnode hsteps

theorem visit {node : Node} {room : Nat} (hnode : strict = true → node.IsWellFormed) :
    Spends env start strict 1 (Exec.visit env node room) := by
  intro ⟨h, w, p, t⟩ hreach hmost
  by_cases hlimit : env.limits.steps.most < p.steps + 1
  · rw [runFrom_visit_of_lt hlimit]
    exact .passed node hnode (Nat.le_antisymm (Nat.succ_le_succ hmost) hlimit)
  · have hmost' : p.steps + 1 ≤ env.limits.steps.most := Nat.not_lt.1 hlimit
    cases hw : env.watcher with
    | none =>
        rw [runFrom_visit_none hlimit hw]
        exact .kept hreach (fun _ => Nat.le_refl _) hmost' nofun
    | some watcher =>
        rw [runFrom_visit_some hlimit hw]
        refine .kept (.watch room node _ h t hw hreach) (fun _ => Nat.le_refl _) hmost'
          fun fault hfault _ => ?_
        exact .watch hw hreach (Safe.error_of_answered hfault)

theorem turn (env : Setting ω τ) {f : Heap → ω → Except Fault α × Heap × ω}
    (hturn : Turn env.binding env.context (env.Disowns start) f) :
    Spends env start strict 0 (Exec.onWorld f : Exec ω τ α) :=
  have hadmits : env.Admits start (env.Disowns start) :=
    { blunt := fun h => Setting.disowns_of_isOrdinary h.isOrdinary
      passed := fun hraises _ _ => hraises
      consult := fun hw hfault _ => .consult hw hfault
      item := fun hw hfault _ => .item hw hfault }
  onWorld (Turn.replies hadmits hturn)

/-- Every part of a run keeps to its steps. -/
def coupling (S : Scene ω) (w : Option (Watcher ω τ)) (start : ω) (strict : Bool) :
    Coupling S w w where
  Rel _ x _ := Spends (S.watched w) start strict 0 x
  Allows := (S.watched w).Disowns start
  strict := strict
  ordinary := Setting.disowns_of_isOrdinary
  loose _ := Setting.disowns_of_isFinal
  pure a := of_ok fun s => ⟨a, s, rfl, rfl, rfl⟩
  bind := bind
  read hf s hreach := hf s.heap s.world s.progress s.watch s.watch s hreach
  fail := fail
  leave := fail nofun
  next := fail nofun
  onHeap _ := of_ok fun _ => ⟨_, _, rfl, rfl, rfl⟩
  setLocal _ _ := of_ok fun _ => ⟨_, _, rfl, rfl, rfl⟩
  coolDown _ _ := of_ok fun _ => ⟨_, _, rfl, rfl, rfl⟩
  onWorld := turn (S.watched w)
  store name v := onWorld fun _ _ hw => ⟨.write name v hw, .ok _⟩
  visit _ _ hnode := (visit hnode).mono (Nat.zero_le _)
  deeper h := deeper h nofun
  round := round

end Spends

end Spending

/-! ### Nodes that are visited -/

section Visits

variable (env : Setting ω τ) (start : ω)

/-- The coupling for the trees that a run may come upon, whatever they are. -/
abbrev spending : Coupling ⟨env.binding, env.limits, env.context⟩ env.watcher env.watcher :=
  Spends.coupling _ _ start false

theorem spends_eval (node : Node) (room : Nat) :
    Spends env start false 1 (eval env node room) := by
  have hrule : ∀ room, Spends env start false 0 (evaluate env node room) :=
    (spending env start).evaluate node nofun false
  have hlimit := node.isFor_faultAt (.limit (.expression env.limits.depth.text))
  unfold eval enter
  match room with
  | 0 => exact .noRoom
  | 1 =>
      exact .deeper (Setting.disowns_of_isFinal (hlimit.isFinal rfl))
        (fun _ => hlimit.isSignal) .noRoom
  | room + 2 =>
      exact .deeper (Setting.disowns_of_isFinal (hlimit.isFinal rfl))
        (fun _ => hlimit.isSignal) (.bind (.visit nofun) fun _ => .withRoom (hrule room))

theorem spends_begin {node : Node} {rule : Nat → Exec ω τ Unit}
    (hrule : ∀ room, Spends env start false 0 (rule room)) (room : Nat) :
    Spends env start false 1 (begin env node room rule) :=
  .withRoom (.bind (.visit nofun) fun _ => hrule room)

end Visits

end Exec

/-! ### Runs -/

namespace Interpreter

theorem surfaced_faultAt (node : Node) (cause : Cause) :
    surfaced (node.faultAt cause) = node.faultAt cause := by
  have hcause : ∀ line cause, surfaced (.ofCause line cause) = .ofCause line cause := by
    intro line cause
    unfold Fault.ofCause
    split
    · split <;> rfl
    · rfl
    · rfl
  have hshape : ∀ (shape : Shape) cause, surfaced (shape.faultAt cause) = shape.faultAt cause := by
    intro shape cause
    unfold Shape.faultAt Shape.last? Shape.item?
    split
    · rename_i fault hfault
      split at hfault
      · split at hfault
        · cases hfault
        · cases hfault
          rfl
      · split at hfault
        · cases hfault
          rfl
        · split at hfault
          · cases hfault
          · cases hfault
            rfl
    · exact hcause _ cause
    · exact hcause _ cause
  unfold Node.faultAt
  split
  · exact hshape _ _
  · exact hshape _ _
  · exact hcause _ _

end Interpreter

/-! ### Counting the calls of a watcher -/

/-- The watcher that also counts its calls. -/
def Watcher.counted (watcher : Watcher ω τ) : Watcher ω (τ × Nat) :=
  fun room node p h w t =>
    let answer := watcher room node p h w t.1
    (answer.1, answer.2.1, answer.2.2, t.2 + 1)

end TriggerEngine
