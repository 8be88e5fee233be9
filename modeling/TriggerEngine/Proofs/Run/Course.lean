/-
**The course of a run.**

What a run comes to says nothing about the way there.  Some questions are about that way: in what
state the run is when a routine of the host is called, which globals are looked at, which node is
visited next.  This module describes the way itself.  At each moment a run is occupied with a task,
with some room and in some state, and the task leads into others: an expression into its operands,
one after the other and only as far as they are reached, a loop into its rounds, a named routine
into its arguments and, when it has been looked up, into the call.  The course of a run is
everything that its statements lead into.

Main definitions:

* `Task`, `Moment` — what a run is occupied with, and when;
* `Exec.Leads` — what a task leads into;
* `Interpreter.Course` — the moments of a run;
* `Exec.Pairing.Keeps` — properties of states that all computations of a run keep.

Main results:

* `Exec.Leads.keeps` — what a task leads into starts in a state with such a property;
* `Interpreter.Course.keeps` — **a property that computations keep holds throughout a run**.
-/

import Mathlib.Logic.Relation
import TriggerEngine.Proofs.Run.Ending

set_option autoImplicit false

namespace TriggerEngine

variable {ω τ τ₁ τ₂ α β : Type}

/-! ### Moments -/

/-- What a run is occupied with. -/
inductive Task where
  /-- Statements are executed one after the other. -/
  | statements (nodes : List Node)
  /-- A statement is executed, its visit first. -/
  | statement (node : Node)
  /-- A statement is executed that has been visited. -/
  | execution (node : Node)
  /-- A loop with a test is before one of its rounds. -/
  | repetition (test body : Node)
  /-- A loop over a source is before its `i`-th round. -/
  | iteration (name : Name) (source : Source) (body : Node) (i : Nat)
  /-- Expressions are evaluated from left to right. -/
  | expressions (nodes : List Node)
  /-- An expression is evaluated, its visit first. -/
  | expression (node : Node)
  /-- An expression is evaluated that has been visited. -/
  | evaluation (node : Node)
  /-- A node is visited. -/
  | visit (node : Node)
  /-- What is registered under a name is called. -/
  | named (role : Role) (name : String) (args : List Value)
  /-- A value is called. -/
  | called (callee : Value) (args : List Value)
  /-- A member of a value is looked up. -/
  | member (target : Value) (name : Name)
  /-- A global is read, by an expression for its name. -/
  | read (key : Node) (name : String)
  /-- A variable that is not local is looked up among the globals. -/
  | outer (name : String)
  /-- A global is set, by an expression for its name. -/
  | write (key : Node) (name : String) (v : Value)

/-- A run at some time: its task, the room that is left for it and the state. -/
structure Moment (ω τ : Type) where
  /-- The task. -/
  task : Task
  /-- The room. -/
  room : Nat
  /-- The state. -/
  state : State ω τ

/-- The state one level deeper. -/
def State.deepened (s : State ω τ) : State ω τ :=
  { s with progress := { s.progress with depth := s.progress.depth + 1 } }

namespace Exec

/-- What a task leads into at once. -/
inductive Leads (env : Setting ω τ) : Moment ω τ → Moment ω τ → Prop
  | firstStatement {node : Node} {rest : List Node} {room : Nat} {s : State ω τ} :
      Leads env ⟨.statements (node :: rest), room, s⟩ ⟨.statement node, room, s⟩
  | laterStatements {node : Node} {rest : List Node} {room : Nat} {s s' : State ω τ} :
      (exec env node room).runFrom s = (.ok (), s') →
      Leads env ⟨.statements (node :: rest), room, s⟩ ⟨.statements rest, room, s'⟩
  | statementVisit {node : Node} {room : Nat} {s : State ω τ} : room ≠ 0 →
      Leads env ⟨.statement node, room, s⟩ ⟨.visit node, room - 1, s⟩
  | statementRule {node : Node} {room : Nat} {s s' : State ω τ} : room ≠ 0 →
      (visit env node (room - 1)).runFrom s = (.ok (), s') →
      Leads env ⟨.statement node, room, s⟩ ⟨.execution node, room, s'⟩
  | expressionVisit {node : Node} {room : Nat} {s : State ω τ} :
      ¬env.limits.depth.most < s.progress.depth + 1 →
      Leads env ⟨.expression node, room + 2, s⟩ ⟨.visit node, room, s.deepened⟩
  | expressionRule {node : Node} {room : Nat} {s s' : State ω τ} :
      ¬env.limits.depth.most < s.progress.depth + 1 →
      (visit env node room).runFrom s.deepened = (.ok (), s') → (room = 0 → node.isNumber = true) →
      Leads env ⟨.expression node, room + 2, s⟩ ⟨.evaluation node, room, s'⟩
  | firstExpression {node : Node} {rest : List Node} {room : Nat} {s : State ω τ} :
      Leads env ⟨.expressions (node :: rest), room, s⟩ ⟨.expression node, room, s⟩
  | laterExpressions {node : Node} {rest : List Node} {room : Nat} {s s' : State ω τ} {v : Value} :
      (eval env node room).runFrom s = (.ok v, s') →
      Leads env ⟨.expressions (node :: rest), room, s⟩ ⟨.expressions rest, room, s'⟩
  -- Expressions.
  | list {items : List Node} {line : Line} {room : Nat} {s : State ω τ} :
      Leads env ⟨.evaluation (.list items line), room + 2, s⟩ ⟨.expressions items, room, s⟩
  | outer {name : String} {line : Line} {room : Nat} {s : State ω τ} :
      s.progress.locals.get? (s.progress.locals.nameFor (.word name)) = none →
      Leads env ⟨.evaluation (.ident (.word name) line), room, s⟩ ⟨.outer name, room, s⟩
  | globalKey {key : Node} {line : Line} {room : Nat} {s : State ω τ} :
      Leads env ⟨.evaluation (.global key line), room + 1, s⟩ ⟨.expression key, room, s⟩
  | globalRead {key : Node} {line : Line} {room : Nat} {s s' : State ω τ} {name : String}
      {mark : Mark} : (eval env key room).runFrom s = (.ok (.str name mark), s') →
      Leads env ⟨.evaluation (.global key line), room + 1, s⟩ ⟨.read key name, room, s'⟩
  | arguments {role : Role} {name : String} {args : List Node} {line : Line} {room : Nat}
      {s : State ω τ} : env.binding.isRegistered role name s.world = true →
      Leads env ⟨.evaluation (.reference role (.word name) args line), room + 2, s⟩
        ⟨.expressions args, room, s⟩
  | named {role : Role} {name : String} {args : List Node} {line : Line} {room : Nat}
      {s s' s'' : State ω τ} {values : List Value} {answer : Option Value} :
      env.binding.isRegistered role name s.world = true →
      (evaluateAll env args room).runFrom s = (.ok values, s') →
      (consult env (room + 2) (.lookup role name)).runFrom s' = (.ok answer, s'') →
      Leads env ⟨.evaluation (.reference role (.word name) args line), room + 2, s⟩
        ⟨.named role name values, room + 2, s''⟩
  | memberTarget {target : Node} {name : Name} {line : Line} {room : Nat} {s : State ω τ} :
      Leads env ⟨.evaluation (.member target name line), room, s⟩ ⟨.expression target, room, s⟩
  | member {target : Node} {name : Name} {line : Line} {room : Nat} {s s' : State ω τ} {v : Value} :
      (eval env target room).runFrom s = (.ok v, s') →
      Leads env ⟨.evaluation (.member target name line), room, s⟩ ⟨.member v name, room, s'⟩
  | indexTarget {target key : Node} {line : Line} {room : Nat} {s : State ω τ} :
      Leads env ⟨.evaluation (.index target key line), room, s⟩ ⟨.expression target, room, s⟩
  | indexKey {target key : Node} {line : Line} {room : Nat} {s s' : State ω τ} {v : Value} :
      (eval env target room).runFrom s = (.ok v, s') →
      Leads env ⟨.evaluation (.index target key line), room, s⟩ ⟨.expression key, room, s'⟩
  | callee {callee : Node} {args : List Node} {line : Line} {room : Nat} {s : State ω τ} :
      Leads env ⟨.evaluation (.call callee args line), room, s⟩ ⟨.expression callee, room, s⟩
  | calleeArguments {callee : Node} {args : List Node} {line : Line} {room : Nat}
      {s s' : State ω τ} {c : Value} : (eval env callee (room + 2)).runFrom s = (.ok c, s') →
      c.isCallable = true →
      Leads env ⟨.evaluation (.call callee args line), room + 2, s⟩ ⟨.expressions args, room, s'⟩
  | called {callee : Node} {args : List Node} {line : Line} {room : Nat} {s s' s'' : State ω τ}
      {c : Value} {values : List Value} : (eval env callee (room + 2)).runFrom s = (.ok c, s') →
      c.isCallable = true → (evaluateAll env args room).runFrom s' = (.ok values, s'') →
      Leads env ⟨.evaluation (.call callee args line), room + 2, s⟩ ⟨.called c values, room + 2, s''⟩
  | unary {op : Operator} {operand : Node} {line : Line} {room : Nat} {s : State ω τ} :
      Leads env ⟨.evaluation (.unary op operand line), room, s⟩ ⟨.expression operand, room, s⟩
  | sign {name : Name} {operand : Node} {line : Line} {room : Nat} {s : State ω τ} :
      Leads env ⟨.evaluation (.sign name operand line), room, s⟩ ⟨.expression operand, room, s⟩
  | left {op : Operator} {left right : Node} {line : Line} {room : Nat} {s : State ω τ} :
      Leads env ⟨.evaluation (.binary op left right line), room, s⟩ ⟨.expression left, room, s⟩
  | right {op : Operator} {left right : Node} {line : Line} {room : Nat} {s s' : State ω τ}
      {v : Value} : op ≠ .and → op ≠ .or → (eval env left room).runFrom s = (.ok v, s') →
      Leads env ⟨.evaluation (.binary op left right line), room, s⟩ ⟨.expression right, room, s'⟩
  | rightAnd {left right : Node} {line : Line} {room : Nat} {s s' : State ω τ} :
      (holds env left room).runFrom s = (.ok true, s') →
      Leads env ⟨.evaluation (.binary .and left right line), room, s⟩ ⟨.expression right, room, s'⟩
  | rightOr {left right : Node} {line : Line} {room : Nat} {s s' : State ω τ} :
      (holds env left room).runFrom s = (.ok false, s') →
      Leads env ⟨.evaluation (.binary .or left right line), room, s⟩ ⟨.expression right, room, s'⟩
  | torn {first : Node} {shape : Shape} {room : Nat} {s : State ω τ} :
      Leads env ⟨.evaluation (.torn first shape), room, s⟩ ⟨.expression first, room, s⟩
  -- Statements.
  | declared {name : Name} {value : Node} {line : Line} {room : Nat} {s : State ω τ} :
      Leads env ⟨.execution (.declare name (some value) line), room, s⟩ ⟨.expression value, room, s⟩
  | assignedKey {key value : Node} {line line' : Line} {room : Nat} {s : State ω τ} :
      Leads env ⟨.execution (.assign (.global key line) value line'), room + 1, s⟩
        ⟨.expression key, room, s⟩
  | assignedGlobal {key value : Node} {line line' : Line} {room : Nat} {s s' : State ω τ}
      {name : String} {mark : Mark} : (eval env key room).runFrom s = (.ok (.str name mark), s') →
      Leads env ⟨.execution (.assign (.global key line) value line'), room + 1, s⟩
        ⟨.expression value, room + 1, s'⟩
  | globalWrite {key value : Node} {line line' : Line} {room : Nat} {s s₁ s₂ : State ω τ}
      {name : String} {mark : Mark} {v : Value} :
      (eval env key room).runFrom s = (.ok (.str name mark), s₁) →
      (eval env value (room + 1)).runFrom s₁ = (.ok v, s₂) →
      Leads env ⟨.execution (.assign (.global key line) value line'), room + 1, s⟩
        ⟨.write key name v, room + 1, s₂⟩
  | assigned {target value : Node} {line : Line} {room : Nat} {s s' : State ω τ} :
      (∀ key line, target ≠ .global key line) → (checkTarget target).runFrom s = (.ok (), s') →
      Leads env ⟨.execution (.assign target value line), room, s⟩ ⟨.expression value, room, s'⟩
  | expression {value : Node} {line : Line} {room : Nat} {s : State ω τ} :
      Leads env ⟨.execution (.expression value line), room, s⟩ ⟨.expression value, room, s⟩
  | test {test body : Node} {otherwise : Option Node} {line : Line} {room : Nat} {s : State ω τ} :
      Leads env ⟨.execution (.conditional test body otherwise line), room, s⟩
        ⟨.expression test, room, s⟩
  | consequence {test body : Node} {otherwise : Option Node} {line : Line} {room : Nat}
      {s s' : State ω τ} : (holds env test (room + 1)).runFrom s = (.ok true, s') →
      Leads env ⟨.execution (.conditional test body otherwise line), room + 1, s⟩
        ⟨.statement body, room, s'⟩
  | alternative {test body otherwise : Node} {line : Line} {room : Nat} {s s' : State ω τ} :
      (holds env test (room + 1)).runFrom s = (.ok false, s') →
      Leads env ⟨.execution (.conditional test body (some otherwise) line), room + 1, s⟩
        ⟨.statement otherwise, room, s'⟩
  | block {body : List Node} {line : Line} {room : Nat} {s : State ω τ} :
      ¬env.limits.depth.most < s.progress.depth + 1 →
      Leads env ⟨.execution (.block body line), room + 2, s⟩ ⟨.statements body, room, s.deepened⟩
  | repetition {test body : Node} {line : Line} {room : Nat} {s : State ω τ} :
      Leads env ⟨.execution (.repetition test body line), room, s⟩ ⟨.repetition test body, room, s⟩
  | source {name : Name} {source body : Node} {bound : Option Node} {line : Line} {room : Nat}
      {s : State ω τ} :
      Leads env ⟨.execution (.iteration name source bound body line), room, s⟩
        ⟨.expression source, room, s⟩
  | bound {name : Name} {source bound body : Node} {line : Line} {room : Nat} {s s' : State ω τ}
      {v : Value} : (eval env source room).runFrom s = (.ok v, s') →
      Leads env ⟨.execution (.iteration name source (some bound) body line), room, s⟩
        ⟨.expression bound, room, s'⟩
  | iteration {name : Name} {source body : Node} {line : Line} {room : Nat} {s s' : State ω τ}
      {from' : Source} :
      (eval env source room >>= fun v => Source.ofValue v line).runFrom s = (.ok from', s') →
      Leads env ⟨.execution (.iteration name source none body line), room, s⟩
        ⟨.iteration name from' body 0, room, s'⟩
  | range {name : Name} {source bound body : Node} {line : Line} {room : Nat} {s s' : State ω τ}
      {from' : Source} : (Source.ofBounds env source bound line room).runFrom s = (.ok from', s') →
      Leads env ⟨.execution (.iteration name source (some bound) body line), room, s⟩
        ⟨.iteration name from' body 0, room, s'⟩
  | cooldown {seconds : Node} {line : Line} {room : Nat} {s : State ω τ} :
      Leads env ⟨.execution (.cooldown seconds line), room, s⟩ ⟨.expression seconds, room, s⟩
  -- Loops.
  | repetitionTest {test body : Node} {room : Nat} {s : State ω τ} :
      Leads env ⟨.repetition test body, room, s⟩ ⟨.expression test, room, s⟩
  | repetitionBody {test body : Node} {room : Nat} {s s' : State ω τ} :
      (holds env test (room + 1)).runFrom s = (.ok true, s') →
      Leads env ⟨.repetition test body, room + 1, s⟩ ⟨.statement body, room, s'⟩
  | repetitionAgain {test body : Node} {room : Nat} {s s' s'' : State ω τ} :
      (holds env test room).runFrom s = (.ok true, s') →
      (round (nested env body room)).runFrom s' = (.ok true, s'') →
      Leads env ⟨.repetition test body, room, s⟩ ⟨.repetition test body, room, s''⟩
  | iterationBody {name : Name} {source : Source} {body : Node} {i room : Nat}
      {s s' s'' : State ω τ} {v : Value} :
      (source.item env (room + 1) i).runFrom s = (.ok (some v), s') →
      (setLocal name v).runFrom s' = (.ok (), s'') →
      Leads env ⟨.iteration name source body i, room + 1, s⟩ ⟨.statement body, room, s''⟩
  | iterationAgain {name : Name} {source : Source} {body : Node} {i room : Nat}
      {s s' : State ω τ} :
      (source.round env room name (nested env body room) i).runFrom s = (.ok true, s') →
      Leads env ⟨.iteration name source body i, room, s⟩
        ⟨.iteration name source body (i + 1), room, s'⟩

end Exec

/-- The moments of a run that has not started before: all that its statements lead into. -/
def Interpreter.Course (env : Setting ω τ) (room : Nat) (program : Program) (s : State ω τ) :
    Moment ω τ → Prop :=
  Relation.ReflTransGen (Exec.Leads env) ⟨.statements program, room, inPhase .running s⟩

/-! ### What holds throughout -/

namespace Exec

theorem exists_of_bind_eq_ok {x : Exec ω τ α} {f : α → Exec ω τ β} {s s' : State ω τ} {b : β}
    (h : (x >>= f).runFrom s = (.ok b, s')) :
    ∃ a s₁, x.runFrom s = (.ok a, s₁) ∧ (f a).runFrom s₁ = (.ok b, s') := by
  rcases hfirst : x.runFrom s with ⟨stop | a, s₁⟩
  · rw [runFrom_bind_of_error hfirst] at h
    cases h
  · rw [runFrom_bind_of_ok hfirst] at h
    exact ⟨a, s₁, rfl, h⟩

theorem ExpressionPairing.item {E : Setting ω τ₁} {limits : Limits} {watcher : Option (Watcher ω τ₂)}
    (C : ExpressionPairing E limits watcher) {looped : Bool} (room : Nat) (source : Source) (i : Nat) :
    C.Rel looped (source.item E room i) (source.item (E.under limits watcher) room i) := by
  cases source with
  | values items => exact C.pure _
  | range first last =>
      dsimp only [Source.item]
      split
      · exact C.bind (C.onHeap _) fun v => C.pure (some v)
      · exact C.pure none
  | sequence id => exact C.onWorld (.item room id i)

/-- A property of states that all computations of a pairing keep, on its second side, and that is
kept a level deeper as well. -/
structure Pairing.Keeps {E : Setting ω τ₁} {limits : Limits} {watcher : Option (Watcher ω τ₂)}
    (C : Pairing E limits watcher) (I : State ω τ₂ → Prop) : Prop where
  loose : C.strict = false
  holds : ∀ node, C.Holds node
  keeps : ∀ {α : Type} {looped : Bool} {x₁ : Exec ω τ₁ α} {x₂ : Exec ω τ₂ α},
    C.Rel looped x₁ x₂ → ∀ {s a s'}, I s → x₂.runFrom s = (.ok a, s') → I s'
  deepened : ∀ {s}, ¬limits.depth.most < s.progress.depth + 1 → I s → I s.deepened

namespace Pairing.Keeps

variable {E : Setting ω τ₁} {limits : Limits} {watcher : Option (Watcher ω τ₂)}
  {C : Pairing E limits watcher} {I : State ω τ₂ → Prop} (K : C.Keeps I)

include K

theorem form {P : Prop} (h : C.strict = true) : P := by
  rw [K.loose] at h
  cases h

theorem visit (node : Node) (room : Nat) :
    C.Rel false (Exec.visit E node room) (Exec.visit (E.under limits watcher) node room) :=
  C.visit room (K.holds node) K.form

theorem eval (node : Node) (room : Nat) :
    C.Rel false (Exec.eval E node room) (Exec.eval (E.under limits watcher) node room) :=
  C.eval K.form (fun node _ => K.holds node) false room

theorem evaluateAll (nodes : List Node) (room : Nat) :
    C.Rel false (Exec.evaluateAll E nodes room)
      (Exec.evaluateAll (E.under limits watcher) nodes room) :=
  C.evaluateAll nodes K.form (fun node _ => K.holds node) false room

theorem exec (looped : Bool) (node : Node) (room : Nat) :
    C.Rel looped (Exec.exec E node room) (Exec.exec (E.under limits watcher) node room) :=
  C.begin (K.holds node) K.form room (C.execute node looped K.form fun node _ => K.holds node)

theorem test (node : Node) (room : Nat) :
    C.Rel false (Exec.holds E node room) (Exec.holds (E.under limits watcher) node room) :=
  C.bind (K.eval node room) fun v => C.truthy room v

theorem round (node : Node) (room : Nat) :
    C.Rel false (Exec.round (Exec.nested E node room))
      (Exec.round (Exec.nested (E.under limits watcher) node room)) :=
  C.round (C.within room fun room => K.exec true node room)

theorem ofBounds (source bound : Node) (line : Line) (room : Nat) :
    C.Rel false (Source.ofBounds E source bound line room)
      (Source.ofBounds (E.under limits watcher) source bound line room) :=
  have hline : C.Lined line := C.lined (K.holds (.leave line))
  C.bind (K.eval source room) fun first => C.bind (K.eval bound room) fun last =>
    C.bind (C.rangeBound first hline) fun first => C.bind (C.rangeBound last hline) fun last =>
      C.pure (Source.range first last)

theorem consult (room : Nat) (inquiry : Inquiry) {s s' : State ω τ₂} {answer : Option Value}
    (hs : I s) (h : (Exec.consult (E.under limits watcher) room inquiry).runFrom s =
      (.ok answer, s')) : I s' :=
  K.keeps (C.consult room inquiry : C.Rel false _ _) hs h

theorem item (room : Nat) (source : Source) (i : Nat) {s s' : State ω τ₂} {v? : Option Value}
    (hs : I s)
    (hitem : (source.item (E.under limits watcher) room i).runFrom s = (.ok v?, s')) : I s' :=
  K.keeps (C.item room source i : C.Rel false _ _) hs hitem

theorem ofValue (v : Value) (line : Line) {s s' : State ω τ₂} {source : Source} (hs : I s)
    (hsource : (Source.ofValue v line).runFrom s = (.ok source, s')) : I s' := by
  cases v with
  | str text mark =>
      have htexts : C.Rel false
          (Exec.onHeap (fun h => h.newTexts (text.toList.map String.singleton)) >>= fun items =>
            Pure.pure (Source.values items) : Exec ω τ₁ Source)
          (Exec.onHeap (fun h => h.newTexts (text.toList.map String.singleton)) >>= fun items =>
            Pure.pure (Source.values items)) :=
        C.bind (C.onHeap _) fun items => C.pure (Source.values items)
      exact K.keeps htexts hs hsource
  | object id sort =>
      cases sort with
      | sequence =>
          cases hsource
          exact hs
      | _ => cases hsource
  | map ref =>
      cases hsource
      exact hs
  | list ref =>
      cases hsource
      exact hs
  | _ => cases hsource

end Pairing.Keeps

theorem Leads.keeps {E : Setting ω τ₁} {limits : Limits} {watcher : Option (Watcher ω τ₂)}
    {C : Pairing E limits watcher} {I : State ω τ₂ → Prop} (K : C.Keeps I) {m m' : Moment ω τ₂}
    (h : Leads (E.under limits watcher) m m') (hm : I m.state) : I m'.state := by
  cases h with
  | laterStatements hrun => exact K.keeps (K.exec false _ _) hm hrun
  | statementRule _ hrun => exact K.keeps (K.visit _ _) hm hrun
  | expressionVisit hdepth | block hdepth => exact K.deepened hdepth hm
  | expressionRule hdepth hrun _ => exact K.keeps (K.visit _ _) (K.deepened hdepth hm) hrun
  | laterExpressions hrun | member hrun | indexKey hrun | calleeArguments hrun _ | right _ _ hrun
  | globalRead hrun | assignedGlobal hrun | bound hrun => exact K.keeps (K.eval _ _) hm hrun
  | named _ hrun hasked => exact K.consult _ _ (K.keeps (K.evaluateAll _ _) hm hrun) hasked
  | called hcallee _ hargs =>
      exact K.keeps (K.evaluateAll _ _) (K.keeps (K.eval _ _) hm hcallee) hargs
  | globalWrite hkey hvalue => exact K.keeps (K.eval _ _) (K.keeps (K.eval _ _) hm hkey) hvalue
  | assigned _ hrun => exact K.keeps (C.checkTarget K.form : C.Rel false _ _) hm hrun
  | rightAnd hrun | rightOr hrun | consequence hrun | alternative hrun | repetitionBody hrun =>
      exact K.keeps (K.test _ _) hm hrun
  | iteration hrun =>
      obtain ⟨v, s₁, hsource, hvalues⟩ := exists_of_bind_eq_ok hrun
      exact K.ofValue v _ (K.keeps (K.eval _ _) hm hsource) hvalues
  | range hrun => exact K.keeps (K.ofBounds _ _ _ _) hm hrun
  | repetitionAgain htest hround => exact K.keeps (K.round _ _) (K.keeps (K.test _ _) hm htest) hround
  | iterationBody hitem hset =>
      exact K.keeps (C.setLocal _ _ : C.Rel false _ _) (K.item _ _ _ hm hitem) hset
  | iterationAgain hrun =>
      obtain ⟨v?, s₁, hitem, hrest⟩ := exists_of_bind_eq_ok hrun
      have hs₁ := K.item _ _ _ hm hitem
      cases v? with
      | none => cases hrest
      | some v => exact K.keeps (C.bind (C.setLocal _ v) fun _ => K.round _ _) hs₁ hrest
  | _ => exact hm

end Exec

/-- **A property that computations keep holds throughout a run.** -/
theorem Interpreter.Course.keeps {E : Setting ω τ₁} {limits : Limits}
    {watcher : Option (Watcher ω τ₂)} {C : Exec.Pairing E limits watcher} {I : State ω τ₂ → Prop}
    (K : C.Keeps I) {room : Nat} {program : Program} {s : State ω τ₂} {m : Moment ω τ₂}
    (h : Course (E.under limits watcher) room program s m) (hs : I (inPhase .running s)) :
    I m.state := by
  induction h with
  | refl => exact hs
  | tail _ hleads ih => exact hleads.keeps K ih

end TriggerEngine
