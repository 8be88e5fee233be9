/-
**Setting cooldowns.**

The end of a cooldown that a run has come to is touched by one kind of statement alone, and only if
that succeeds: expressions leave it as it is, and so do all other statements.  So a run has the end
that it started with unless a moment of its course is one at which a cooldown is set.  After such a
moment there is an end, for later moments to see and when the run is over.

Main definitions:

* `Moment.Cools` — at a moment a cooldown is set;
* `Exec.Spares` — a computation leaves the end of the cooldown as it is.

Main results:

* `Exec.Spares.eval` — expressions do;
* `Exec.Uncooled.spares` — statements on whose way no cooldown is set do;
* `Interpreter.run_uncooled` — a run without a cooldown being set comes to no new end;
* `Interpreter.Precedes.isSome_cooldownEnd` — at a moment after a cooldown was set there is an end;
* `Interpreter.isSome_cooldownEnd_run_iff` — **a run comes to an end of a cooldown if and only if it
  sets one**.
-/

import TriggerEngine.Proofs.Run.Succession

set_option autoImplicit false

namespace TriggerEngine

variable {ω τ α β : Type}

/-- Whether a cooldown is set at a moment: a statement for that is executed, and does not fail. -/
def Moment.Cools (env : Setting ω τ) (m : Moment ω τ) : Prop :=
  ∃ seconds line s', m.task = .execution (.cooldown seconds line) ∧
    (Exec.execute env (.cooldown seconds line) m.room).runFrom m.state = (.ok (), s')

namespace Exec

/-- Whether a computation, started in a state, leaves the end of the cooldown as it is. -/
def Spares (x : Exec ω τ α) (s : State ω τ) : Prop :=
  (x.runFrom s).2.progress.cooldownEnd = s.progress.cooldownEnd

namespace Spares

theorem bind {x : Exec ω τ α} {f : α → Exec ω τ β} {s : State ω τ} (hx : Spares x s)
    (hf : ∀ a s', x.runFrom s = (.ok a, s') → Spares (f a) s') : Spares (x >>= f) s :=
  Keeps.after (P := (·.progress.cooldownEnd = _)) hx fun a s' hrun hs => (hf a s' hrun).trans hs

theorem ofExcept (result : Except Fault α) (s : State ω τ) : Spares (Exec.ofExcept result) s := by
  cases result with
  | ok a => rfl
  | error fault => rfl

theorem onWorld (f : Heap → ω → Except Fault α × Heap × ω) (s : State ω τ) :
    Spares (Exec.onWorld f) s := by
  obtain ⟨h, w, p, t⟩ := s
  rw [Spares, runFrom_onWorld]

theorem visit (env : Setting ω τ) (node : Node) (room : Nat) (s : State ω τ) :
    Spares (Exec.visit env node room) s := by
  rw [Spares, progress_visit]

theorem deeper {most : Nat} {limit : Unit → Fault} {x : Exec ω τ α} {s : State ω τ}
    (hx : ¬most < s.progress.depth + 1 → Spares x s.deepened) :
    Spares (Exec.deeper most limit x) s := by
  by_cases hdepth : most < s.progress.depth + 1
  · rw [Spares, runFrom_deeper_of_lt hdepth]
  · rw [Spares, runFrom_deeper_of_not_lt hdepth]
    exact hx hdepth

theorem within {room : Nat} {rule : Nat → Exec ω τ α} {s : State ω τ}
    (h : ∀ room', room = room' + 1 → Spares (rule room') s) : Spares (Exec.within room rule) s := by
  cases room with
  | zero => rfl
  | succ room => exact h room rfl

theorem ite {c : Bool} {x y : Exec ω τ α} {s : State ω τ} (hx : c = true → Spares x s)
    (hy : c = false → Spares y s) : Spares (if c = true then x else y) s := by
  cases c with
  | true => exact hx rfl
  | false => exact hy rfl

theorem round {x : Exec ω τ Unit} {s : State ω τ} (hx : Spares x s) : Spares (Exec.round x) s := by
  rw [Spares, runFrom_round]
  exact hx

/-- The steps of expressions leave the end as it is. -/
def pairing (env : Setting ω τ) : ExpressionPairing env env.limits env.watcher where
  Rel _ x _ := ∀ s, Spares x s
  Allows _ := True
  Holds _ := True
  strict := false
  blunt _ := trivial
  cause _ _ := trivial
  notWord _ _ := trivial
  loose _ := fun _ => trivial
  pure _ _ := rfl
  bind hx hf s := bind (hx s) fun a s' _ => hf a s'
  read hf s := hf s.heap s.world s.progress s.watch s.watch s
  fail _ _ := rfl
  onHeap _ _ := rfl
  onWorld _ := onWorld _
  visit room _ _ := visit env _ room
  deeper _ _ hx _ := deeper fun _ => hx _

variable (env : Setting ω τ)

theorem eval (node : Node) (room : Nat) (s : State ω τ) : Spares (Exec.eval env node room) s :=
  (pairing env).eval nofun (fun _ _ => trivial) false room s

theorem holds (node : Node) (room : Nat) (s : State ω τ) : Spares (Exec.holds env node room) s :=
  bind (eval env node room s) fun v s' _ =>
    have htruthy : (pairing env).Rel false _ _ := (pairing env).truthy room v
    htruthy s'

theorem item (room : Nat) (source : Source) (i : Nat) (s : State ω τ) :
    Spares (source.item env room i) s :=
  have hitem : (pairing env).Rel false _ _ := (pairing env).item room source i
  hitem s

theorem ofValue (v : Value) (line : Line) (s : State ω τ) : Spares (Source.ofValue v line) s := by
  cases v with
  | object id sort => cases sort <;> rfl
  | _ => rfl

theorem globalName (line : Line) (v : Value) (s : State ω τ) : Spares (Exec.globalName line v) s := by
  unfold Exec.globalName
  split
  · rfl
  · rfl

theorem checkTarget (target : Node) (s : State ω τ) : Spares (Exec.checkTarget target) s := by
  unfold Exec.checkTarget
  split
  · refine bind (bind (ofExcept _ s) fun _ _ _ => rfl) fun _ s' _ => ?_
    split
    · rfl
    · rfl
  · rfl

theorem slotOf (target : Node) (s : State ω τ) : Spares (Exec.slotOf target) s :=
  bind (ofExcept _ s) fun _ _ _ => rfl

theorem rangeBound (v : Value) (line : Line) (s : State ω τ) :
    Spares (Exec.rangeBound v line) s := by
  unfold Exec.rangeBound
  split
  · rfl
  · rfl

theorem ofBounds (source bound : Node) (line : Line) (room : Nat) (s : State ω τ) :
    Spares (Source.ofBounds env source bound line room) s :=
  bind (eval env source room s) fun first s₁ _ => bind (eval env bound room s₁) fun last s₂ _ =>
    bind (rangeBound first line s₂) fun _ s₃ _ => bind (rangeBound last line s₃) fun _ _ _ => rfl

theorem setCooldown {room : Nat} {v : Value} {line : Line} {s : State ω τ}
    (h : ∀ s', (Exec.setCooldown env room v line).runFrom s ≠ (.ok (), s')) :
    Spares (Exec.setCooldown env room v line) s := by
  have htext : Spares (Exec.textOf env room v) s := by
    have hrel : (pairing env).Rel false (Exec.textOf env room v) _ := (pairing env).textOf room v
    exact hrel s
  unfold Exec.setCooldown at h ⊢
  cases hn : v.number? with
  | none => exact bind htext fun _ _ _ => rfl
  | some n =>
      simp only [hn] at h
      refine ite (fun _ => bind htext fun _ _ _ => ?_) fun hpositive => ?_
      · exact bind rfl fun _ _ hmismatch => nomatch hmismatch
      · rw [if_neg (Bool.eq_false_iff.1 hpositive)] at h
        refine bind (bind (onWorld _ s) fun _ _ _ => rfl) fun _ s₁ hasked => ?_
        refine bind rfl fun _ _ hget => ?_
        cases hget
        cases htime : (env.binding.clock s₁.world).add n with
        | ok time =>
            exact absurd (by rw [runFrom_bind_of_ok hasked, runFrom_read, htime]; rfl) (h _)
        | error trouble => rfl

end Spares

/-- Whether no cooldown is set from a moment on. -/
def Uncooled (env : Setting ω τ) (m : Moment ω τ) : Prop :=
  ∀ m', Relation.ReflTransGen (Leads env) m m' → ¬m'.Cools env

namespace Uncooled

variable {env : Setting ω τ} {m m' : Moment ω τ}

theorem leads (h : Uncooled env m) (hleads : Leads env m m') : Uncooled env m' :=
  fun _ hlater => h _ (.head hleads hlater)

variable (env) in
/-- Whether a statement leaves the end as it is where no cooldown is set. -/
def Sparing (node : Node) : Prop :=
  ∀ room s, Uncooled env ⟨.execution node, room, s⟩ → Spares (execute env node room) s

variable (env) in
/-- Whether statements do. -/
def SparingAll (nodes : List Node) : Prop :=
  ∀ room s, Uncooled env ⟨.statements nodes, room, s⟩ → Spares (execAll env nodes room) s

namespace Sparing

variable {node : Node} (hnode : Sparing env node)

include hnode

theorem exec {room : Nat} {s : State ω τ} (h : Uncooled env ⟨.statement node, room, s⟩) :
    Spares (Exec.exec env node room) s := by
  unfold Exec.exec begin
  refine .ite (fun _ => .bind rfl fun _ _ hnone => nomatch hnone) fun hroom => ?_
  refine .bind (.visit env node _ s) fun _ s' hvisit => ?_
  exact hnode room s' (h.leads (.statementRule (by simpa using hroom) hvisit))

theorem nested {room : Nat} {s : State ω τ}
    (h : ∀ room', room = room' + 1 → Uncooled env ⟨.statement node, room', s⟩) :
    Spares (Exec.nested env node room) s :=
  .within fun room' hroom => hnode.exec (h room' hroom)

end Sparing

theorem sparing_declare (name : Name) (value : Node) (line : Line) :
    Sparing env (.declare name (some value) line) := by
  intro room s h
  exact .bind (.eval env value room s) fun _ _ _ => rfl

theorem sparing_assign (target value : Node) (line : Line) :
    Sparing env (.assign target value line) := by
  intro room s h
  cases target with
  | global key l =>
      refine .bind (.within fun room' _ => ?_) fun name s₁ _ => ?_
      · exact .bind (.eval env key room' s) fun v s' _ => .globalName key.line v s'
      · refine .bind (.eval env value room s₁) fun v s₂ _ => ?_
        exact .bind (.bind (.onWorld _ s₂) fun _ _ _ => rfl) fun _ s₃ _ => .onWorld _ s₃
  | _ =>
      refine .bind (.checkTarget _ s) fun _ s₁ _ => .bind (.eval env value room s₁) fun v s₂ _ => ?_
      exact .bind (.slotOf _ s₂) fun _ _ _ => rfl

theorem sparing_expression (value : Node) (line : Line) :
    Sparing env (.expression value line) := by
  intro room s h
  exact .bind (.eval env value room s) fun _ _ _ => rfl

theorem sparing_conditional {body : Node} {otherwise : Option Node} (hbody : Sparing env body)
    (hotherwise : ∀ node ∈ otherwise, Sparing env node) (test : Node) (line : Line) :
    Sparing env (.conditional test body otherwise line) := by
  intro room s h
  cases otherwise with
  | none =>
      rw [execute_conditional]
      refine .bind (.holds env test room s) fun holds s' hrun => .ite (fun htrue => ?_) fun _ => rfl
      subst htrue
      refine hbody.nested fun room' hroom => ?_
      subst hroom
      exact h.leads (.consequence hrun)
  | some node =>
      rw [execute_conditional_some]
      refine .bind (.holds env test room s) fun holds s' hrun =>
        .ite (fun htrue => ?_) fun hfalse => ?_
      · subst htrue
        refine hbody.nested fun room' hroom => ?_
        subst hroom
        exact h.leads (.consequence hrun)
      · subst hfalse
        refine (hotherwise node rfl).nested fun room' hroom => ?_
        subst hroom
        exact h.leads (.alternative hrun)

theorem sparing_block {body : List Node} (hbody : SparingAll env body) (line : Line) :
    Sparing env (.block body line) := by
  intro room s h
  refine .within fun room₁ hroom₁ => .deeper fun hdepth => .within fun room₂ hroom₂ => ?_
  subst hroom₁ hroom₂
  exact hbody room₂ _ (h.leads (.block hdepth))

theorem repeatWhile {test body : Node} {room : Nat} (hbody : Sparing env body) (fuel : Nat) :
    ∀ s, Uncooled env ⟨.repetition test body, room, s⟩ →
      Spares (Exec.repeatWhile (holds env test room) (nested env body room) fuel) s := by
  induction fuel with
  | zero =>
      intro s _
      rfl
  | succ fuel ih =>
      intro s h
      rw [Exec.repeatWhile]
      refine .bind (.holds env test room s) fun holds s₁ hrun => .ite (fun htrue => ?_) fun _ => rfl
      subst htrue
      refine .bind (.round (hbody.nested fun room' hroom => ?_)) fun goesOn s₂ hagain =>
        .ite (fun htrue => ?_) fun _ => rfl
      · subst hroom
        exact h.leads (.repetitionBody hrun)
      · subst htrue
        exact ih s₂ (h.leads (.repetitionAgain hrun hagain))

theorem sparing_repetition {body : Node} (hbody : Sparing env body) (test : Node) (line : Line) :
    Sparing env (.repetition test body line) := by
  intro room s h
  refine .bind rfl fun fuel s' hrounds => ?_
  cases hrounds
  exact repeatWhile hbody _ _ (h.leads .repetition)

theorem loop {name : Name} {source : Source} {body : Node} {room : Nat} (hbody : Sparing env body)
    (fuel : Nat) : ∀ i s, Uncooled env ⟨.iteration name source body i, room, s⟩ →
      Spares (Exec.loop (source.round env room name (nested env body room)) fuel i) s := by
  induction fuel with
  | zero =>
      intro i s _
      rfl
  | succ fuel ih =>
      intro i s h
      rw [Exec.loop]
      refine .bind ?_ fun goesOn s₁ hagain => .ite (fun htrue => ?_) fun _ => rfl
      · refine .bind (.item env room source i s) fun v? s₁ hfound => ?_
        cases v? with
        | none => rfl
        | some v =>
            refine .bind rfl fun _ s₂ hset => .round (hbody.nested fun room' hroom => ?_)
            subst hroom
            exact h.leads (.iterationBody hfound hset)
      · subst htrue
        exact ih (i + 1) s₁ (h.leads (.iterationAgain hagain))

theorem each {name : Name} {source : Source} {body : Node} {room : Nat} {s : State ω τ}
    (hbody : Sparing env body) (h : Uncooled env ⟨.iteration name source body 0, room, s⟩) :
    Spares (source.each env room name (nested env body room)) s := by
  rw [Spares, Source.runFrom_each]
  exact loop hbody _ 0 s h

theorem sparing_iteration {body : Node} (hbody : Sparing env body) (name : Name) (source : Node)
    (bound : Option Node) (line : Line) :
    Sparing env (.iteration name source bound body line) := by
  intro room s h
  cases bound with
  | none =>
      rw [execute_iteration]
      refine .bind ?_ fun values s' hrun => each hbody (h.leads (.iteration hrun))
      exact .bind (.eval env source room s) fun v s' _ => .ofValue v line s'
  | some bound =>
      rw [execute_iteration_some]
      exact .bind (.ofBounds env source bound line room s) fun values s' hrun =>
        each hbody (h.leads (.range hrun))

theorem sparing_cooldown (seconds : Node) (line : Line) : Sparing env (.cooldown seconds line) := by
  intro room s h
  refine .bind (.eval env seconds room s) fun v s' hv => .setCooldown env fun s'' hset => ?_
  exact h _ .refl ⟨seconds, line, s'', rfl, (runFrom_bind_of_ok hv).trans hset⟩

theorem sparingAll_cons {node : Node} {rest : List Node} (hnode : Sparing env node)
    (hrest : SparingAll env rest) : SparingAll env (node :: rest) := by
  intro room s h
  rw [Exec.execAll]
  refine .bind (hnode.exec (h.leads .firstStatement)) fun _ s' hrun => ?_
  exact hrest room s' (h.leads (.laterStatements hrun))

mutual

theorem spares : ∀ node : Node, Sparing env node
  | .declare name (some value) line => sparing_declare name value line
  | .assign target value line => sparing_assign target value line
  | .expression value line => sparing_expression value line
  | .conditional test body none line => sparing_conditional (spares body) (by simp) test line
  | .conditional test body (some otherwise) line =>
      sparing_conditional (spares body)
        (fun _ hnode => Option.some.inj hnode ▸ spares otherwise) test line
  | .block body line => sparing_block (sparesAll body) line
  | .repetition test body line => sparing_repetition (spares body) test line
  | .iteration name source bound body line =>
      sparing_iteration (spares body) name source bound line
  | .cooldown seconds line => sparing_cooldown seconds line
  | .declare _ none _ | .leave _ | .next _ | .other .. => by
      intro _ _ _
      rw [Exec.execute]
      rfl
  | .literal .. | .list .. | .ident .. | .global .. | .reference .. | .member .. | .index ..
  | .call .. | .unary .. | .sign .. | .binary .. | .torn .. => by
      intro _ _ _
      rfl

theorem sparesAll : ∀ nodes : List Node, SparingAll env nodes
  | [] => fun _ _ _ => rfl
  | node :: rest => sparingAll_cons (spares node) (sparesAll rest)

end

end Uncooled

end Exec

theorem Interpreter.run_uncooled {env : Setting ω τ} {room : Nat} {program : Program}
    {s : State ω τ} (h : ∀ m, Course env room program s m → ¬m.Cools env) :
    (run env room program s).2.progress.cooldownEnd = s.progress.cooldownEnd := by
  by_cases hidle : s.progress.phase = .idle
  · have hspares := Exec.Uncooled.sparesAll program room (inPhase .running s) h
    obtain ⟨phase, hphase⟩ := concluded_progress
      ((Exec.execAll env program room).runFrom (inPhase .running s))
    rw [run_of_idle hidle, hphase]
    exact hspares
  · rw [run_of_not_idle hidle]

/-! ### Where a cooldown is set -/

namespace Exec

theorem isSome_of_setCooldown {env : Setting ω τ} {room : Nat} {v : Value} {line : Line}
    {s s' : State ω τ} (h : (setCooldown env room v line).runFrom s = (.ok (), s')) :
    s'.progress.cooldownEnd.isSome = true := by
  unfold setCooldown at h
  cases hn : v.number? with
  | none =>
      simp only [hn] at h
      obtain ⟨_, _, -, hmismatch⟩ := exists_of_bind_eq_ok h
      cases hmismatch
  | some n =>
      simp only [hn] at h
      split at h
      · obtain ⟨_, _, -, hrest⟩ := exists_of_bind_eq_ok h
        obtain ⟨_, _, hmismatch, -⟩ := exists_of_bind_eq_ok hrest
        cases hmismatch
      · obtain ⟨_, s₁, -, hclock⟩ := exists_of_bind_eq_ok h
        obtain ⟨_, _, hget, hrest⟩ := exists_of_bind_eq_ok hclock
        cases hget
        cases htime : (env.binding.clock s₁.world).add n with
        | ok time =>
            rw [htime] at hrest
            cases hrest
            rfl
        | error trouble =>
            rw [htime] at hrest
            cases hrest

theorem tracking_isSome (S : Scene ω) (watcher : Watcher ω τ) :
    Tracking S watcher watcher id fun _ p _ => p.cooldownEnd.isSome = true where
  depth _ h := h
  turn _ h := h
  exceed _ h := h
  watch _ _ _ _ h := h
  agrees _ _ _ _ _ _ := rfl
  locals _ h := h
  phase _ h := h
  coolDown _ _ _ := rfl
  write _ _ h := h

end Exec

theorem Moment.Cools.leaves {env : Setting ω τ} {m : Moment ω τ} (h : m.Cools env) :
    m.Leaves env fun s => s.progress.cooldownEnd.isSome = true := by
  obtain ⟨task, room, s⟩ := m
  obtain ⟨seconds, line, s', rfl, hrun⟩ := h
  intro _
  obtain ⟨v, s₁, -, hset⟩ := Exec.exists_of_bind_eq_ok hrun
  show ((Exec.execute env (.cooldown seconds line) room).runFrom s).2.progress.cooldownEnd.isSome = _
  rw [hrun]
  exact Exec.isSome_of_setCooldown hset

namespace Interpreter

variable {S : Scene ω} {watcher : Watcher ω τ} {room : Nat} {program : Program} {s : State ω τ}

theorem Precedes.isSome_cooldownEnd {m m' : Moment ω τ}
    (h : Precedes (S.watched (some watcher)) room program s m m')
    (hm : m.Cools (S.watched (some watcher))) : m'.state.progress.cooldownEnd.isSome = true :=
  (Exec.tracking_isSome S watcher).of_precedes h hm.leaves

/-- **A run comes to an end of a cooldown if and only if it sets one.** -/
theorem isSome_cooldownEnd_run_iff (hidle : s.progress.phase = .idle)
    (hnone : s.progress.cooldownEnd = none) :
    (run (S.watched (some watcher)) room program s).2.progress.cooldownEnd.isSome = true ↔
      ∃ m, Course (S.watched (some watcher)) room program s m ∧
        m.Cools (S.watched (some watcher)) := by
  constructor
  · intro hsome
    by_contra hnever
    have huncooled := run_uncooled fun m hm hcools => hnever ⟨m, hm, hcools⟩
    rw [huncooled, hnone] at hsome
    cases hsome
  · rintro ⟨m, hm, hcools⟩
    exact (Exec.tracking_isSome S watcher).of_course hm hidle hcools.leaves

end Interpreter

end TriggerEngine
