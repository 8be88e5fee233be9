/-
**What a run depends on.**

The course of a run tells where it goes, and with that when it calls its host, asks it for a global
or tells it one.  Nothing of this is left out.  Let another host take the place of the first: if it
does the same at every moment of the course, the whole run is the same, whatever it would do at
moments that do not come.

Main definitions:

* `Setting.served` — the setting in which another host is called and keeps the globals;
* `Moment.Agrees` — the other host does the same at a moment.

Main results:

* `Exec.AgreesFrom.evaluates`, `Exec.AgreesFrom.executes` — expressions and statements;
* `Interpreter.run_served` — **a run depends on its host only through its course**.
-/

import TriggerEngine.Proofs.Run.Course

set_option autoImplicit false

namespace TriggerEngine

variable {ω τ α β : Type}

/-- The setting in which another host is called and keeps the globals. -/
def Setting.served (env : Setting ω τ) (other : Binding ω) : Setting ω τ :=
  { env with
    binding := { env.binding with
      invoke := other.invoke
      call := other.call
      readGlobal := other.readGlobal
      writeGlobal := other.writeGlobal } }

/-- Whether another host does the same at a moment: if the host is called then, or has a global when
it has been asked for it, or keeps one when it has been told of it. -/
def Moment.Agrees (env : Setting ω τ) (other : Binding ω) (m : Moment ω τ) : Prop :=
  match m.task with
  | .named role name args =>
    other.invoke m.room role name args env.context m.state.heap m.state.world =
      env.binding.invoke m.room role name args env.context m.state.heap m.state.world
  | .called (.fn id) args =>
    other.call m.room id args m.state.heap m.state.world =
      env.binding.call m.room id args m.state.heap m.state.world
  | .read _ name | .outer name =>
    ∀ answer s, (Exec.consult env m.room (.reading name)).runFrom m.state = (.ok answer, s) →
      other.readGlobal name s.world = env.binding.readGlobal name s.world
  | .write _ name v =>
    ∀ answer s, (Exec.consult env m.room (.writing name v)).runFrom m.state = (.ok answer, s) →
      other.writeGlobal name v s.world = env.binding.writeGlobal name v s.world
  | _ => True

/-- The state one level higher. -/
def State.lifted (s : State ω τ) : State ω τ :=
  { s with progress := { s.progress with depth := s.progress.depth - 1 } }

namespace Source

/-- How often a loop over a source may go around, which is more often than it ever does. -/
def most (env : Setting ω τ) (s : State ω τ) : Source → Nat
  | .values items => items.length + 1
  | .range first last => (last - first).toNat + 1
  | .sequence _ => env.limits.steps.most + 1 - s.progress.steps

theorem runFrom_each (env : Setting ω τ) (room : Nat) (name : Name) (body : Exec ω τ Unit)
    (source : Source) (s : State ω τ) :
    (source.each env room name body).runFrom s =
      (Exec.loop (source.round env room name body) (source.most env s) 0).runFrom s := by
  cases source with
  | values items =>
      rw [most, ← forEach_eq_loop items _ 0 (Nat.zero_le _) (by omega)]
      rfl
  | range first last =>
      rw [most, ← forRange_eq_loop rfl _ 0 (Nat.zero_le _) (by omega)]
      simp only [each, Nat.sub_zero, Nat.cast_zero, add_zero]
  | sequence id =>
      rw [most, ← forItems_eq_loop]
      rfl

end Source

namespace Exec

/-- Whether another host does the same from a moment on. -/
def AgreesFrom (env : Setting ω τ) (other : Binding ω) (m : Moment ω τ) :
    Prop :=
  ∀ m', Relation.ReflTransGen (Leads env) m m' → m'.Agrees env other

theorem runFrom_bind_congr {x x' : Exec ω τ α} {f f' : α → Exec ω τ β} {s : State ω τ}
    (hx : x'.runFrom s = x.runFrom s)
    (hf : ∀ a s', x.runFrom s = (.ok a, s') → (f' a).runFrom s' = (f a).runFrom s') :
    (x' >>= f').runFrom s = (x >>= f).runFrom s := by
  rcases hrun : x.runFrom s with ⟨stop | a, s'⟩
  · rw [runFrom_bind_of_error hrun, runFrom_bind_of_error (hx.trans hrun)]
  · rw [runFrom_bind_of_ok hrun, runFrom_bind_of_ok (hx.trans hrun)]
    exact hf a s' hrun

theorem runFrom_deeper_of_lt {most : Nat} {limit : Unit → Fault} {x : Exec ω τ α} {s : State ω τ}
    (h : most < s.progress.depth + 1) :
    (deeper most limit x).runFrom s = (.error (.fault (limit ())), s) := by
  obtain ⟨heap, w, p, t⟩ := s
  have hdepth : most < p.depth + 1 := h
  rw [runFrom_deeper]
  simp only [if_pos hdepth]
  rfl

theorem runFrom_deeper_of_not_lt {most : Nat} {limit : Unit → Fault} {x : Exec ω τ α}
    {s : State ω τ} (h : ¬most < s.progress.depth + 1) :
    (deeper most limit x).runFrom s =
      ((x.runFrom s.deepened).1, (x.runFrom s.deepened).2.lifted) := by
  obtain ⟨heap, w, p, t⟩ := s
  have hdepth : ¬most < p.depth + 1 := h
  rw [runFrom_deeper]
  simp only [if_neg hdepth]
  rfl

theorem runFrom_deeper_congr {most : Nat} {limit : Unit → Fault} {x x' : Exec ω τ α}
    {s : State ω τ}
    (hx : ¬most < s.progress.depth + 1 → x'.runFrom s.deepened = x.runFrom s.deepened) :
    (deeper most limit x').runFrom s = (deeper most limit x).runFrom s := by
  by_cases hdepth : most < s.progress.depth + 1
  · rw [runFrom_deeper_of_lt hdepth, runFrom_deeper_of_lt hdepth]
  · rw [runFrom_deeper_of_not_lt hdepth, runFrom_deeper_of_not_lt hdepth, hx hdepth]

theorem runFrom_within_congr {room : Nat} {rule rule' : Nat → Exec ω τ α} {s : State ω τ}
    (h : ∀ room', room = room' + 1 → (rule' room').runFrom s = (rule room').runFrom s) :
    (within room rule').runFrom s = (within room rule).runFrom s := by
  cases room with
  | zero => rw [within, within]
  | succ room => exact h room rfl

theorem exists_of_within_eq_ok {room : Nat} {rule : Nat → Exec ω τ α} {s s' : State ω τ} {a : α}
    (h : (within room rule).runFrom s = (.ok a, s')) :
    ∃ room', room = room' + 1 ∧ (rule room').runFrom s = (.ok a, s') := by
  cases room with
  | zero => cases h
  | succ room => exact ⟨room, rfl, h⟩

theorem runFrom_quoting (line : Line) (expression : Quotation) (what : String → Mismatch)
    (s : State ω τ) :
    ∃ stop s', (quoting line expression what : Exec ω τ α).runFrom s = (.error stop, s') := by
  unfold quoting
  cases expression () with
  | ok text | error fault => exact ⟨_, s, rfl⟩

theorem runFrom_ite_congr {c : Bool} {x x' y y' : Exec ω τ α} {s : State ω τ}
    (hx : c = true → x'.runFrom s = x.runFrom s) (hy : c = false → y'.runFrom s = y.runFrom s) :
    (if c = true then x' else y').runFrom s = (if c = true then x else y).runFrom s := by
  cases c with
  | true => exact hx rfl
  | false => exact hy rfl

theorem runFrom_bind_stopped {x : Exec ω τ α} {f f' : α → Exec ω τ β} {s : State ω τ}
    (hx : ∃ stop s', x.runFrom s = (.error stop, s')) :
    (x >>= f').runFrom s = (x >>= f).runFrom s := by
  obtain ⟨stop, s', hrun⟩ := hx
  rw [runFrom_bind_of_error hrun, runFrom_bind_of_error hrun]

namespace AgreesFrom

variable {env : Setting ω τ} {other : Binding ω} {m m' : Moment ω τ}

theorem leads (h : AgreesFrom env other m) (hleads : Leads env m m') :
    AgreesFrom env other m' :=
  fun _ hlater => h _ (.head hleads hlater)

theorem invoke {room : Nat} {role : Role} {name : String} {args : List Value} {s : State ω τ}
    (h : AgreesFrom env other ⟨.named role name args, room, s⟩) (line : Line) :
    (onWorld (invokeIn (env.served other).binding (env.served other).context room role name args
        line)).runFrom s =
      (onWorld (invokeIn env.binding env.context room role name args line)).runFrom s := by
  obtain ⟨heap, w, p, t⟩ := s
  have hsame : (env.served other).binding.invoke room role name args (env.served other).context
      heap w = env.binding.invoke room role name args env.context heap w := h _ .refl
  rw [runFrom_onWorld, runFrom_onWorld]
  simp only [invokeIn, hsame]

theorem callValue {room : Nat} {callee : Value} {args : List Value} {s : State ω τ}
    (h : AgreesFrom env other ⟨.called callee args, room, s⟩) (expression : Quotation)
    (line : Line) :
    (Exec.callValue (env.served other) room callee args expression line).runFrom s =
      (Exec.callValue env room callee args expression line).runFrom s := by
  cases callee with
  | fn id =>
      obtain ⟨heap, w, p, t⟩ := s
      have hsame : (env.served other).binding.call room id args heap w =
          env.binding.call room id args heap w := h _ .refl
      unfold Exec.callValue
      rw [runFrom_onWorld, runFrom_onWorld]
      simp only [callIn, hsame]
  | method receiver member =>
      have hmember : ∀ heap w, callMember (env.served other).binding room receiver member args heap w =
          callMember env.binding room receiver member args heap w := by
        intro heap w
        have hitem : (env.served other).binding.item? = env.binding.item? := rfl
        have hfold : ∀ (α : Type) id take i (a : α) heap w,
            (env.served other).binding.fold room id take i a heap w =
              env.binding.fold room id take i a heap w :=
          fun α id => Binding.fold_congr hitem room id
        simp only [callMember, extendFrom, joinFrom, hfold]
        rfl
      obtain ⟨heap, w, p, t⟩ := s
      unfold Exec.callValue
      rw [runFrom_onWorld, runFrom_onWorld]
      simp only [callIn, hmember]
  | _ => rfl

variable (env other) in
/-- Whether an expression is evaluated alike where another host does the same. -/
def Evaluates (node : Node) : Prop :=
  ∀ room s, AgreesFrom env other ⟨.evaluation node, room, s⟩ →
    (Exec.evaluate (env.served other) node room).runFrom s =
      (Exec.evaluate env node room).runFrom s

variable (env other) in
/-- Whether expressions are evaluated alike. -/
def EvaluatesAll (nodes : List Node) : Prop :=
  ∀ room s, AgreesFrom env other ⟨.expressions nodes, room, s⟩ →
    (Exec.evaluateAll (env.served other) nodes room).runFrom s =
      (Exec.evaluateAll env nodes room).runFrom s

theorem Evaluates.eval {node : Node} (hnode : Evaluates env other node) {room : Nat}
    {s : State ω τ} (h : AgreesFrom env other ⟨.expression node, room, s⟩) :
    (Exec.eval (env.served other) node room).runFrom s =
      (Exec.eval env node room).runFrom s := by
  match room with
  | 0 => rw [Exec.eval, Exec.eval, enter, enter]
  | 1 =>
      rw [Exec.eval, Exec.eval, enter, enter]
      rfl
  | room + 2 =>
      rw [Exec.eval, Exec.eval, enter, enter]
      refine runFrom_deeper_congr fun hdepth => runFrom_bind_congr rfl fun _ s' hvisit => ?_
      refine runFrom_ite_congr (fun _ => runFrom_bind_stopped ⟨_, s', rfl⟩) fun hroom => ?_
      refine hnode room s' (h.leads (.expressionRule hdepth hvisit fun hzero => ?_))
      subst hzero
      simpa using hroom

theorem evaluates_list {items : List Node} (hitems : EvaluatesAll env other items) (line : Line) :
    Evaluates env other (.list items line) := by
  intro room s h
  refine runFrom_within_congr fun room₁ hroom₁ => runFrom_within_congr fun room₂ hroom₂ => ?_
  subst hroom₁ hroom₂
  exact runFrom_bind_congr (hitems room₂ s (h.leads .list)) fun _ _ _ => rfl

theorem globalOf {room : Nat} {name : String} {s : State ω τ}
    (h : ∀ answer s', (consult env room (.reading name)).runFrom s = (.ok answer, s') →
      other.readGlobal name s'.world = env.binding.readGlobal name s'.world) :
    (Exec.globalOf (env.served other) room name).runFrom s =
      (Exec.globalOf env room name).runFrom s := by
  refine runFrom_bind_congr rfl fun _ s' hasked => ?_
  obtain ⟨answer, s₁, hconsult, hdone⟩ := exists_of_bind_eq_ok hasked
  cases hdone
  have hsame : (env.served other).binding.readGlobal name s'.world =
      env.binding.readGlobal name s'.world := h answer s' hconsult
  rw [runFrom_read, runFrom_read, hsame]

theorem evaluates_ident (name : Name) (line : Line) :
    Evaluates env other (.ident name line) := by
  intro room s h
  refine runFrom_bind_congr rfl fun found s' hget => ?_
  cases hget
  cases hlocal : s.progress.locals.get? (s.progress.locals.nameFor name) with
  | some v => rfl
  | none =>
      cases name with
      | word word =>
          exact runFrom_bind_congr (globalOf (h.leads (.outer hlocal) _ .refl)) fun _ _ _ => rfl
      | _ => rfl

theorem eq_of_globalName {line : Line} {v : Value} {name : String} {s s' : State ω τ}
    (h : (globalName line v).runFrom s = (.ok name, s')) : s' = s ∧ ∃ mark, v = .str name mark := by
  cases v with
  | str text mark =>
      cases h
      exact ⟨rfl, mark, rfl⟩
  | _ => cases h

theorem evaluates_global {key : Node} (hkey : Evaluates env other key) (line : Line) :
    Evaluates env other (.global key line) := by
  intro room s h
  refine runFrom_within_congr fun room₁ hroom₁ => ?_
  subst hroom₁
  refine runFrom_bind_congr (hkey.eval (h.leads .globalKey)) fun v s₁ hv => ?_
  refine runFrom_bind_congr rfl fun name s₂ hname => ?_
  obtain ⟨rfl, mark, rfl⟩ := eq_of_globalName hname
  exact globalOf (h.leads (.globalRead hv) _ .refl)

theorem eq_of_registered {role : Role} {name : Name} {line : Line} {word : String}
    {s s' : State ω τ} (h : (registered env role name line).runFrom s = (.ok word, s')) :
    name = .word word ∧ s' = s ∧ env.binding.isRegistered role word s.world = true := by
  cases name with
  | word found =>
      unfold registered at h
      dsimp only at h
      rw [runFrom_read] at h
      cases hfound : env.binding.isRegistered role found s.world with
      | true =>
          rw [hfound] at h
          cases h
          exact ⟨rfl, rfl, hfound⟩
      | false =>
          rw [hfound] at h
          cases h
  | _ => cases h

theorem evaluates_reference {args : List Node} (hargs : EvaluatesAll env other args)
    (role : Role) (name : Name) (line : Line) :
    Evaluates env other (.reference role name args line) := by
  intro room s h
  refine runFrom_bind_congr rfl fun word s' hregistered => ?_
  obtain ⟨rfl, rfl, hword⟩ := eq_of_registered hregistered
  refine runFrom_bind_congr ?_ fun values s₁ hvalues => ?_
  · refine runFrom_within_congr fun room₁ hroom₁ => runFrom_within_congr fun room₂ hroom₂ => ?_
    subst hroom₁ hroom₂
    exact hargs room₂ _ (h.leads (.arguments hword))
  · obtain ⟨room₁, rfl, hwithin⟩ := exists_of_within_eq_ok hvalues
    obtain ⟨room₂, rfl, hall⟩ := exists_of_within_eq_ok hwithin
    refine runFrom_bind_congr (runFrom_bind_congr rfl fun _ s₂ hasked => ?_) fun _ _ _ => rfl
    obtain ⟨answer, s₃, hlookup, hdone⟩ := exists_of_bind_eq_ok hasked
    cases hdone
    exact invoke (h.leads (.named hword hall hlookup)) line

theorem evaluates_member {target : Node} (htarget : Evaluates env other target) (name : Name)
    (line : Line) : Evaluates env other (.member target name line) := by
  intro room s h
  exact runFrom_bind_congr (htarget.eval (h.leads .memberTarget)) fun _ _ _ => rfl

theorem evaluates_index {target key : Node} (htarget : Evaluates env other target)
    (hkey : Evaluates env other key) (line : Line) :
    Evaluates env other (.index target key line) := by
  intro room s h
  exact runFrom_bind_congr (htarget.eval (h.leads .indexTarget)) fun _ _ hrun =>
    runFrom_bind_congr (hkey.eval (h.leads (.indexKey hrun))) fun _ _ _ => rfl

theorem evaluates_call {callee : Node} {args : List Node}
    (hcallee : Evaluates env other callee) (hargs : EvaluatesAll env other args)
    (line : Line) : Evaluates env other (.call callee args line) := by
  intro room s h
  -- The callee may be evaluated with any room; what follows needs some.
  refine runFrom_bind_congr (hcallee.eval (h.leads .callee)) fun c s' hc => ?_
  refine runFrom_ite_congr (fun _ => runFrom_bind_stopped (runFrom_quoting _ _ _ s'))
    fun hcallable => ?_
  have hcallable' : c.isCallable = true := by simpa using hcallable
  refine runFrom_bind_congr ?_ fun values s₁ hvalues => ?_
  · refine runFrom_within_congr fun room₁ hroom₁ => runFrom_within_congr fun room₂ hroom₂ => ?_
    subst hroom₁ hroom₂
    exact hargs room₂ _ (h.leads (.calleeArguments hc hcallable'))
  · obtain ⟨room₁, rfl, hwithin⟩ := exists_of_within_eq_ok hvalues
    obtain ⟨room₂, rfl, hall⟩ := exists_of_within_eq_ok hwithin
    exact callValue (h.leads (.called hc hcallable' hall)) _ line

theorem evaluates_unary {operand : Node} (hoperand : Evaluates env other operand)
    (op : Operator) (line : Line) : Evaluates env other (.unary op operand line) := by
  intro room s h
  exact runFrom_bind_congr (hoperand.eval (h.leads .unary)) fun _ _ _ => rfl

theorem evaluates_sign {operand : Node} (hoperand : Evaluates env other operand)
    (name : Name) (line : Line) : Evaluates env other (.sign name operand line) := by
  intro room s h
  exact runFrom_bind_congr (hoperand.eval (h.leads .sign)) fun _ _ _ => rfl

theorem evaluates_binary {left right : Node} (hleft : Evaluates env other left)
    (hright : Evaluates env other right) (op : Operator) (line : Line) :
    Evaluates env other (.binary op left right line) := by
  intro room s h
  cases op with
  | and =>
      refine runFrom_bind_congr (hleft.eval (h.leads .left)) fun v s' hv => ?_
      refine runFrom_bind_congr rfl fun b s₁ htruth => ?_
      have hholds : (Exec.holds env left room).runFrom s = (.ok b, s₁) :=
        (runFrom_bind_of_ok hv).trans htruth
      refine runFrom_ite_congr (fun _ => rfl) fun hgoesOn => ?_
      obtain rfl : b = true := by simpa using hgoesOn
      exact runFrom_bind_congr (hright.eval (h.leads (.rightAnd hholds))) fun _ _ _ => rfl
  | or =>
      refine runFrom_bind_congr (hleft.eval (h.leads .left)) fun v s' hv => ?_
      refine runFrom_bind_congr rfl fun b s₁ htruth => ?_
      have hholds : (Exec.holds env left room).runFrom s = (.ok b, s₁) :=
        (runFrom_bind_of_ok hv).trans htruth
      refine runFrom_ite_congr (fun _ => rfl) fun hgoesOn => ?_
      obtain rfl := hgoesOn
      exact runFrom_bind_congr (hright.eval (h.leads (.rightOr hholds))) fun _ _ _ => rfl
  | _ =>
      exact runFrom_bind_congr (hleft.eval (h.leads .left)) fun v s' hv =>
        runFrom_bind_congr (hright.eval (h.leads (.right (by simp) (by simp) hv))) fun _ _ _ => rfl

theorem evaluates_torn {first : Node} (hfirst : Evaluates env other first) (shape : Shape) :
    Evaluates env other (.torn first shape) := by
  intro room s h
  exact runFrom_bind_congr (hfirst.eval (h.leads .torn)) fun _ _ _ => rfl

theorem evaluatesAll_cons {node : Node} {rest : List Node} (hnode : Evaluates env other node)
    (hrest : EvaluatesAll env other rest) : EvaluatesAll env other (node :: rest) := by
  intro room s h
  exact runFrom_bind_congr (hnode.eval (h.leads .firstExpression)) fun _ _ hfirst =>
    runFrom_bind_congr (hrest room _ (h.leads (.laterExpressions hfirst))) fun _ _ _ => rfl

mutual

theorem evaluates : ∀ node : Node, Evaluates env other node
  | .ident name line => evaluates_ident name line
  | .list items line => evaluates_list (evaluatesAll items) line
  | .global key line => evaluates_global (evaluates key) line
  | .reference role name args line => evaluates_reference (evaluatesAll args) role name line
  | .member target name line => evaluates_member (evaluates target) name line
  | .index target key line => evaluates_index (evaluates target) (evaluates key) line
  | .call callee args line => evaluates_call (evaluates callee) (evaluatesAll args) line
  | .unary op operand line => evaluates_unary (evaluates operand) op line
  | .sign name operand line => evaluates_sign (evaluates operand) name line
  | .binary op left right line => evaluates_binary (evaluates left) (evaluates right) op line
  | .torn first shape => evaluates_torn (evaluates first) shape
  | .literal _ _ _ _ | .other _ _ | .declare _ _ _ | .assign _ _ _ | .expression _ _ | .block _ _
  | .conditional _ _ _ _ | .repetition _ _ _ | .iteration _ _ _ _ _ | .leave _ | .next _
  | .cooldown _ _ => fun _ _ _ => rfl

theorem evaluatesAll : ∀ nodes : List Node, EvaluatesAll env other nodes
  | [] => fun _ _ _ => rfl
  | node :: rest => evaluatesAll_cons (evaluates node) (evaluatesAll rest)

end

variable (env other) in
/-- Whether a statement is executed alike where another host does the same. -/
def Executes (node : Node) : Prop :=
  ∀ room s, AgreesFrom env other ⟨.execution node, room, s⟩ →
    (Exec.execute (env.served other) node room).runFrom s =
      (Exec.execute env node room).runFrom s

variable (env other) in
/-- Whether statements are executed alike. -/
def ExecutesAll (nodes : List Node) : Prop :=
  ∀ room s, AgreesFrom env other ⟨.statements nodes, room, s⟩ →
    (Exec.execAll (env.served other) nodes room).runFrom s =
      (Exec.execAll env nodes room).runFrom s

theorem eval {node : Node} {room : Nat} {s : State ω τ}
    (h : AgreesFrom env other ⟨.expression node, room, s⟩) :
    (Exec.eval (env.served other) node room).runFrom s =
      (Exec.eval env node room).runFrom s :=
  (evaluates node).eval h

theorem holds {test : Node} {room : Nat} {s : State ω τ}
    (h : AgreesFrom env other ⟨.expression test, room, s⟩) :
    (Exec.holds (env.served other) test room).runFrom s =
      (Exec.holds env test room).runFrom s :=
  runFrom_bind_congr h.eval fun _ _ _ => rfl

namespace Executes

variable {node : Node} (hnode : Executes env other node)

include hnode

theorem exec {room : Nat} {s : State ω τ}
    (h : AgreesFrom env other ⟨.statement node, room, s⟩) :
    (Exec.exec (env.served other) node room).runFrom s =
      (Exec.exec env node room).runFrom s := by
  unfold Exec.exec begin
  refine runFrom_ite_congr (fun _ => runFrom_bind_stopped ⟨_, s, rfl⟩) fun hroom => ?_
  refine runFrom_bind_congr rfl fun _ s' hvisit => ?_
  exact hnode room s' (h.leads (.statementRule (by simpa using hroom) hvisit))

theorem nested {room : Nat} {s : State ω τ}
    (h : ∀ room', room = room' + 1 → AgreesFrom env other ⟨.statement node, room', s⟩) :
    (Exec.nested (env.served other) node room).runFrom s =
      (Exec.nested env node room).runFrom s :=
  runFrom_within_congr fun room' hroom => hnode.exec (h room' hroom)

theorem round {room : Nat} {s : State ω τ}
    (h : ∀ room', room = room' + 1 → AgreesFrom env other ⟨.statement node, room', s⟩) :
    (Exec.round (Exec.nested (env.served other) node room)).runFrom s =
      (Exec.round (Exec.nested env node room)).runFrom s := by
  rw [runFrom_round, runFrom_round, hnode.nested h]

end Executes

theorem executes_declare (name : Name) (value : Node) (line : Line) :
    Executes env other (.declare name (some value) line) := by
  intro room s h
  exact runFrom_bind_congr (h.leads .declared).eval fun _ _ _ => rfl

theorem executes_assign (target value : Node) (line : Line) :
    Executes env other (.assign target value line) := by
  intro room s h
  cases target with
  | global key l =>
      refine runFrom_bind_congr ?_ fun name s' hname => ?_
      · refine runFrom_within_congr fun room₁ hroom₁ => ?_
        subst hroom₁
        exact runFrom_bind_congr (h.leads .assignedKey).eval fun _ _ _ => rfl
      · obtain ⟨room₁, rfl, hkey⟩ := exists_of_within_eq_ok hname
        obtain ⟨v, s₁, hv, hglobal⟩ := exists_of_bind_eq_ok hkey
        obtain ⟨rfl, mark, rfl⟩ := eq_of_globalName hglobal
        refine runFrom_bind_congr (h.leads (.assignedGlobal hv)).eval fun u s₂ hu => ?_
        refine runFrom_bind_congr rfl fun _ s₃ hasked => ?_
        obtain ⟨answer, s₄, hconsult, hdone⟩ := exists_of_bind_eq_ok hasked
        cases hdone
        have hsame : (env.served other).binding.writeGlobal name u s₃.world =
            env.binding.writeGlobal name u s₃.world :=
          h.leads (.globalWrite hv hu) _ .refl answer s₃ hconsult
        obtain ⟨heap, w, p, t⟩ := s₃
        rw [runFrom_onWorld, runFrom_onWorld]
        simp only [storeIn, hsame]
  | _ =>
      refine runFrom_bind_congr rfl fun _ s' hchecked => ?_
      exact runFrom_bind_congr (h.leads (.assigned (by simp) hchecked)).eval fun _ _ _ => rfl

theorem executes_expression (value : Node) (line : Line) :
    Executes env other (.expression value line) := by
  intro room s h
  exact runFrom_bind_congr (h.leads .expression).eval fun _ _ _ => rfl

theorem executes_conditional {body : Node} {otherwise : Option Node}
    (hbody : Executes env other body)
    (hotherwise : ∀ node ∈ otherwise, Executes env other node) (test : Node) (line : Line) :
    Executes env other (.conditional test body otherwise line) := by
  intro room s h
  cases otherwise with
  | none =>
      rw [execute_conditional, execute_conditional]
      refine runFrom_bind_congr (h.leads .test).holds fun holds s' hrun => ?_
      refine runFrom_ite_congr (fun htrue => ?_) fun _ => rfl
      subst htrue
      refine hbody.nested fun room' hroom => ?_
      subst hroom
      exact h.leads (.consequence hrun)
  | some node =>
      rw [execute_conditional_some, execute_conditional_some]
      refine runFrom_bind_congr (h.leads .test).holds fun holds s' hrun => ?_
      refine runFrom_ite_congr (fun htrue => ?_) fun hfalse => ?_
      · subst htrue
        refine hbody.nested fun room' hroom => ?_
        subst hroom
        exact h.leads (.consequence hrun)
      · subst hfalse
        refine (hotherwise node rfl).nested fun room' hroom => ?_
        subst hroom
        exact h.leads (.alternative hrun)

theorem executes_block {body : List Node} (hbody : ExecutesAll env other body) (line : Line) :
    Executes env other (.block body line) := by
  intro room s h
  refine runFrom_within_congr fun room₁ hroom₁ => ?_
  refine runFrom_deeper_congr fun hdepth => runFrom_within_congr fun room₂ hroom₂ => ?_
  subst hroom₁ hroom₂
  exact hbody room₂ _ (h.leads (.block hdepth))

theorem repeatWhile {test body : Node} {room : Nat} (hbody : Executes env other body)
    (fuel : Nat) : ∀ s, AgreesFrom env other ⟨.repetition test body, room, s⟩ →
      (Exec.repeatWhile (Exec.holds (env.served other) test room)
        (Exec.nested (env.served other) body room) fuel).runFrom s =
      (Exec.repeatWhile (Exec.holds env test room) (Exec.nested env body room) fuel).runFrom s := by
  induction fuel with
  | zero =>
      intro s _
      rw [Exec.repeatWhile, Exec.repeatWhile]
  | succ fuel ih =>
      intro s h
      rw [Exec.repeatWhile, Exec.repeatWhile]
      refine runFrom_bind_congr (h.leads .repetitionTest).holds fun holds s₁ hrun => ?_
      refine runFrom_ite_congr (fun htrue => ?_) fun _ => rfl
      subst htrue
      refine runFrom_bind_congr (hbody.round fun room' hroom => ?_) fun goesOn s₂ hagain => ?_
      · subst hroom
        exact h.leads (.repetitionBody hrun)
      · refine runFrom_ite_congr (fun htrue => ?_) fun _ => rfl
        subst htrue
        exact ih s₂ (h.leads (.repetitionAgain hrun hagain))

theorem executes_repetition {body : Node} (hbody : Executes env other body) (test : Node)
    (line : Line) : Executes env other (.repetition test body line) := by
  intro room s h
  refine runFrom_bind_congr rfl fun fuel s' hrounds => ?_
  cases hrounds
  exact repeatWhile hbody _ _ (h.leads .repetition)

theorem sourceRound {name : Name} {source : Source} {body : Node} {room i : Nat} {s : State ω τ}
    (hbody : Executes env other body)
    (h : AgreesFrom env other ⟨.iteration name source body i, room, s⟩) :
    (source.round (env.served other) room name
      (Exec.nested (env.served other) body room) i).runFrom s =
    (source.round env room name (Exec.nested env body room) i).runFrom s := by
  have hitem : source.item (env.served other) room i = source.item env room i := by
    cases source <;> rfl
  rw [Source.round, Source.round, hitem]
  refine runFrom_bind_congr rfl fun v? s₁ hfound => ?_
  cases v? with
  | none => rfl
  | some v =>
      refine runFrom_bind_congr rfl fun _ s₂ hset => hbody.round fun room' hroom => ?_
      subst hroom
      exact h.leads (.iterationBody hfound hset)

theorem loop {name : Name} {source : Source} {body : Node} {room : Nat}
    (hbody : Executes env other body) (fuel : Nat) : ∀ i s,
      AgreesFrom env other ⟨.iteration name source body i, room, s⟩ →
      (Exec.loop (source.round (env.served other) room name
        (Exec.nested (env.served other) body room)) fuel i).runFrom s =
      (Exec.loop (source.round env room name (Exec.nested env body room)) fuel i).runFrom s := by
  induction fuel with
  | zero =>
      intro i s _
      rw [Exec.loop, Exec.loop]
  | succ fuel ih =>
      intro i s h
      rw [Exec.loop, Exec.loop]
      refine runFrom_bind_congr (sourceRound hbody h) fun goesOn s₁ hagain => ?_
      refine runFrom_ite_congr (fun htrue => ?_) fun _ => rfl
      subst htrue
      exact ih (i + 1) s₁ (h.leads (.iterationAgain hagain))

theorem each {name : Name} {source : Source} {body : Node} {room : Nat} {s : State ω τ}
    (hbody : Executes env other body)
    (h : AgreesFrom env other ⟨.iteration name source body 0, room, s⟩) :
    (source.each (env.served other) room name
      (Exec.nested (env.served other) body room)).runFrom s =
    (source.each env room name (Exec.nested env body room)).runFrom s := by
  have hmost : source.most (env.served other) s = source.most env s := by
    cases source <;> rfl
  rw [Source.runFrom_each, Source.runFrom_each, hmost]
  exact loop hbody _ 0 s h

theorem executes_iteration {body : Node} (hbody : Executes env other body) (name : Name)
    (source : Node) (bound : Option Node) (line : Line) :
    Executes env other (.iteration name source bound body line) := by
  intro room s h
  cases bound with
  | none =>
      rw [execute_iteration, execute_iteration]
      refine runFrom_bind_congr ?_ fun values s' hrun => each hbody (h.leads (.iteration hrun))
      exact runFrom_bind_congr (h.leads .source).eval fun _ _ _ => rfl
  | some bound =>
      rw [execute_iteration_some, execute_iteration_some]
      refine runFrom_bind_congr ?_ fun values s' hrun => each hbody (h.leads (.range hrun))
      unfold Source.ofBounds
      refine runFrom_bind_congr (h.leads .source).eval fun first s₁ hfirst => ?_
      exact runFrom_bind_congr (h.leads (.bound hfirst)).eval fun _ _ _ => rfl

theorem executes_cooldown (seconds : Node) (line : Line) :
    Executes env other (.cooldown seconds line) := by
  intro room s h
  exact runFrom_bind_congr (h.leads .cooldown).eval fun _ _ _ => rfl

theorem executesAll_cons {node : Node} {rest : List Node} (hnode : Executes env other node)
    (hrest : ExecutesAll env other rest) : ExecutesAll env other (node :: rest) := by
  intro room s h
  rw [Exec.execAll, Exec.execAll]
  refine runFrom_bind_congr (hnode.exec (h.leads .firstStatement)) fun _ s' hrun => ?_
  exact hrest room s' (h.leads (.laterStatements hrun))

mutual

theorem executes : ∀ node : Node, Executes env other node
  | .declare name (some value) line => executes_declare name value line
  | .assign target value line => executes_assign target value line
  | .expression value line => executes_expression value line
  | .conditional test body none line =>
      executes_conditional (executes body) (by simp) test line
  | .conditional test body (some otherwise) line =>
      executes_conditional (executes body)
        (fun _ hnode => Option.some.inj hnode ▸ executes otherwise) test line
  | .block body line => executes_block (executesAll body) line
  | .repetition test body line => executes_repetition (executes body) test line
  | .iteration name source bound body line =>
      executes_iteration (executes body) name source bound line
  | .cooldown seconds line => executes_cooldown seconds line
  | .declare _ none _ | .leave _ | .next _ | .other .. => by
      intro _ _ _
      rw [Exec.execute, Exec.execute]
  | .literal .. | .list .. | .ident .. | .global .. | .reference .. | .member .. | .index ..
  | .call .. | .unary .. | .sign .. | .binary .. | .torn .. => by
      intro _ _ _
      rfl

theorem executesAll : ∀ nodes : List Node, ExecutesAll env other nodes
  | [] => fun _ _ _ => rfl
  | node :: rest => executesAll_cons (executes node) (executesAll rest)

end

end AgreesFrom

end Exec

/-- **A run depends on its host only through its course**: if another host does the same at all its
moments, the run is the same. -/
theorem Interpreter.run_served {env : Setting ω τ} {other : Binding ω}
    {room : Nat} {program : Program} {s : State ω τ}
    (h : ∀ m, Course env room program s m → m.Agrees env other) :
    run (env.served other) room program s = run env room program s := by
  have hrun := Exec.AgreesFrom.executesAll program room (inPhase .running s) h
  unfold run
  rw [hrun]

end TriggerEngine
