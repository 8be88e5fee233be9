/-
**Running programs.**

Expressions are evaluated and statements executed by recursion on the tree.  Operands are
evaluated from left to right, each once; `and` and `or` leave the second one alone when the first
decides.  A named routine is looked up before its arguments are evaluated.  Loops over a list, text
or mapping go through what it held when the loop was entered.

A run that finds no room left fails with the limit it met; every other fault is passed on.  After
a run the interpreter is spent.

Main definitions:

* `Exec.evaluate`, `Exec.eval` — expressions;
* `Exec.execute`, `Exec.exec`, `Exec.execAll` — statements;
* `Outcome`, `Interpreter.run` — a run.
-/

import TriggerEngine.Run.Operation

set_option autoImplicit false

namespace TriggerEngine

/-- The value of a constant with a mark. -/
def Constant.value (mark : Mark) : Constant → Value
  | .null => .null
  | .bool b => .bool b
  | .int n => .ofNumber (.int n) mark
  | .float x => .ofNumber (.float x) mark
  | .str s => .ofText s mark

namespace Exec

variable {ω τ : Type}

/-! ### Expressions -/

/-- The value of a global, or nothing. -/
def globalOf (env : Setting ω τ) (room : Nat) (name : String) : Exec ω τ Value := do
  discard (consult env room (.reading name))
  return env.binding.readGlobal name (← get).world

/-- The value of a variable: a local one, or else a global that is not nothing. -/
def variableOf (env : Setting ω τ) (room : Nat) (name : Name) (line : Line) : Exec ω τ Value := do
  let s ← get
  match s.progress.locals.get? (s.progress.locals.nameFor name), name with
  | some v, _ => return v
  | none, .word word =>
    match ← globalOf env room word with
    | .null => failAt line (.undefinedVariable name)
    | v => return v
  | none, name => failAt line (.undefinedVariable name)

/-- The name of a global; only a text is one. -/
def globalName (line : Line) : Value → Exec ω τ String
  | .str s _ => return s
  | v => mismatch line (.globalName v.typeName)

/-- What a condition decided; only a truth value is a decision. -/
def decision (role : Role) (name : String) (v : Value) (line : Line) : Exec ω τ Value :=
  if role == .condition && !v.isBool then mismatch line (.condition name v.typeName)
  else return v

/-- The name of what is called for a role; only what is registered can be. -/
def registered (env : Setting ω τ) (role : Role) (name : Name) (line : Line) :
    Exec ω τ String := do
  match name with
  | .word word =>
    if !env.binding.isRegistered role word (← get).world then failAt line (unregistered role name)
    return word
  | name => failAt line (unregistered role name)

/-- The fault of a row that stands for what is called for a role, if its name is not registered. -/
def missing (env : Setting ω τ) (w : ω) (shape : Shape) (kind : String) (name : Name) :
    Option Fault :=
  let role? := [Role.executor, .condition, .placeholder].find? fun role => role.name == kind
  role?.bind fun role =>
    if (name.word?.map (env.binding.isRegistered role · w)).getD false then none
    else some (shape.faultAt (unregistered role name))

/-- Fails at a shape that is no expression. -/
def misfit (env : Setting ω τ) (shape : Shape) (text : Except Fault String) : Exec ω τ Value := do
  fail (shape.expressionFault (missing env (← get).world shape) text)

mutual

/-- Evaluates an expression whose node has been visited, with some room left. -/
def evaluate (env : Setting ω τ) : Node → Nat → Exec ω τ Value
  | .literal _ value line tag, _ => return value.value (.literal line.toInt tag)
  | .list items _, room =>
    within room fun room => within room fun room => do newList (← evaluateAll env items room)
  | .ident name line, room => variableOf env room name line
  | .global key _, room =>
    within room fun room => do
      let name ← globalName key.line (← enter env key room (evaluate env key))
      globalOf env room name
  | .reference role name args line, room => do
    let word ← registered env role name line
    let args ← within room fun room => within room fun room => evaluateAll env args room
    let v ← callNamed env room role word args line
    decision role word v line
  | .member target name line, room => do
    memberOf env (← enter env target room (evaluate env target)) name line
  | .index target key line, room => do
    let t ← enter env target room (evaluate env target)
    let k ← enter env key room (evaluate env key)
    itemOf env room t k (fun _ => (Node.index target key line).format) (fun _ => target.format) line
  | .call callee args line, room => do
    let c ← enter env callee room (evaluate env callee)
    if !c.isCallable then quoting line (fun _ => callee.format) (.notCallable · c.typeName)
    let args ← within room fun room => within room fun room => evaluateAll env args room
    callValue env room c args (fun _ => callee.format) line
  | .unary op operand line, room => do
    let v ← enter env operand room (evaluate env operand)
    match op with
    | .not => return .bool (!(← truthy env room v))
    | op => signed op v (fun _ => (Node.unary op operand line).format) line
  | .sign name operand line, room => do
    let v ← enter env operand room (evaluate env operand)
    signed .add v (fun _ => (Node.sign name operand line).format) line
  | .binary .and left right _, room => do
    if !(← truthy env room (← enter env left room (evaluate env left))) then return .bool false
    return .bool (← truthy env room (← enter env right room (evaluate env right)))
  | .binary .or left right _, room => do
    if ← truthy env room (← enter env left room (evaluate env left)) then return .bool true
    return .bool (← truthy env room (← enter env right room (evaluate env right)))
  | .binary op left right line, room => do
    let a ← enter env left room (evaluate env left)
    let b ← enter env right room (evaluate env right)
    binary env room op a b (fun _ => (Node.binary op left right line).format) line
  | .torn first shape, room => do
    let v ← enter env first room (evaluate env first)
    match shape.kind with
    | "and" => if !(← truthy env room v) then return .bool false
    | "or" => if ← truthy env room v then return .bool true
    | "call" =>
      if !v.isCallable then
        quoting (Node.lineOf shape) (fun _ => first.format) (.notCallable · v.typeName)
    | _ => pure ()
    fail shape.tornFault
  | .other shape form, _ => misfit env shape (Node.other shape form).format
  | node, _ => quoting node.line (fun _ => node.format) .invalidExpression

/-- Evaluates expressions from left to right. -/
def evaluateAll (env : Setting ω τ) : List Node → Nat → Exec ω τ (List Value)
  | [], _ => return []
  | node :: rest, room => do
    let v ← enter env node room (evaluate env node)
    return v :: (← evaluateAll env rest room)

end

/-- Evaluates an expression. -/
def eval (env : Setting ω τ) (node : Node) (room : Nat) : Exec ω τ Value :=
  enter env node room (evaluate env node)

/-! ### Statements -/

/-- Looks at the target of an assignment before its value is evaluated. -/
def checkTarget : Node → Exec ω τ Unit
  | .other shape _ => do
    discard (ofExcept shape.head?)
    if shape.rowKind? == some "global" then fail Shape.noItem
  | _ => return

/-- The variable that an assignment to a node other than a global sets: what stands behind its
kind. -/
def slotOf (target : Node) : Exec ω τ Name := do
  return (← ofExcept target.toShape.second?).toName

/-- Loops over the items of a value as they are now. -/
def iterate (env : Setting ω τ) (room : Nat) (name : Name) (v : Value) (line : Line)
    (body : Exec ω τ Unit) : Exec ω τ Unit := do
  let h := (← get).heap
  match v with
  | .map ref => forEach name body ((h.map ref).toList.map Prod.fst)
  | .list ref => forEach name body (h.list ref).toList
  | .str s _ => forEach name body (← onHeap fun h => h.newTexts (s.toList.map String.singleton))
  | .object id .sequence => forItems env room name id body (← rounds env) 0
  | v => mismatch line (.notIterable v.typeName)

/-- The whole number that is an end of a range. -/
def rangeBound (v : Value) (line : Line) : Exec ω τ Int :=
  match v.int? with
  | some n => return n
  | none => mismatch line (.rangeBound v.typeName)

/-- Sets a global, in a world. -/
def storeIn (binding : Binding ω) (name : String) (v : Value) (h : Heap) (w : ω) :
    Except Fault Unit × Heap × ω :=
  (.ok (), h, binding.writeGlobal name v w)

/-- Sets the cooldown to a number of seconds from now. -/
def setCooldown (env : Setting ω τ) (room : Nat) (seconds : Value) (line : Line) :
    Exec ω τ Unit := do
  match seconds.number? with
  | some n =>
    if n.lt (.int 0) then mismatch line (.cooldown (← textOf env room seconds))
    discard (consult env room .time)
    match (env.binding.clock (← get).world).add n with
    | .ok time =>
      let mark ← onHeap Heap.newMark
      onProgress fun p => { p with cooldownEnd := some time, cooldownMark := mark }
    | .error trouble => fail (.ofTrouble trouble)
  | none => mismatch line (.cooldown (← textOf env room seconds))

mutual

/-- Executes a statement whose node has been visited, with some room left. -/
def execute (env : Setting ω τ) : Node → Nat → Exec ω τ Unit
  | .declare name none _, _ => setLocal name .null
  | .declare name (some value) _, room => do setLocal name (← eval env value room)
  | .assign (.global key _) value _, room => do
    let name ← within room fun room => do globalName key.line (← eval env key room)
    let v ← eval env value room
    discard (consult env room (.writing name v))
    onWorld (storeIn env.binding name v)
  | .assign target value _, room => do
    checkTarget target
    let v ← eval env value room
    setLocal (← slotOf target) v
  | .expression value _, room => do discard (eval env value room)
  | .conditional test body none _, room => do
    if ← truthy env room (← eval env test room) then
      within room fun room => begin env body room (execute env body)
  | .conditional test body (some otherwise) _, room => do
    if ← truthy env room (← eval env test room) then
      within room fun room => begin env body room (execute env body)
    else within room fun room => begin env otherwise room (execute env otherwise)
  | .block body line, room => enterBlock env line room (execAll env body)
  | .repetition test body _, room => do
    repeatWhile (do truthy env room (← eval env test room))
      (within room fun room => begin env body room (execute env body)) (← rounds env)
  | .iteration name source none body line, room => do
    let v ← eval env source room
    iterate env room name v line (within room fun room => begin env body room (execute env body))
  | .iteration name source (some bound) body line, room => do
    let first ← eval env source room
    let last ← eval env bound room
    let first ← rangeBound first line
    let last ← rangeBound last line
    forRange name (within room fun room => begin env body room (execute env body))
      (last - first).toNat first
  | .leave _, _ => fail (.leave "" false)
  | .next _, _ => fail (.next "" false)
  | .cooldown seconds line, room => do setCooldown env room (← eval env seconds room) line
  | .other shape _, _ => fail shape.statementFault
  | node, _ => mismatch node.line (.unknownStatement node.kind)

/-- Executes statements one after the other. -/
def execAll (env : Setting ω τ) : List Node → Nat → Exec ω τ Unit
  | [], _ => return
  | node :: rest, room => do
    begin env node room (execute env node)
    execAll env rest room

end

/-- Executes a statement. -/
def exec (env : Setting ω τ) (node : Node) (room : Nat) : Exec ω τ Unit :=
  begin env node room (execute env node)

end Exec

/-! ### Runs -/

/-- The outcome of a run that did not fail. -/
structure Outcome where
  /-- Whether the run was completed or aborted. -/
  phase : Phase
  /-- How many nodes it visited. -/
  steps : Nat
  /-- When the cooldown ends that it set, if it set one. -/
  cooldownEnd : Option Number
  /-- Its local variables. -/
  locals : Locals

namespace Interpreter

variable {ω τ : Type}

/-- The room below a run that starts with the given number of frames already taken. -/
def roomBelow (frames : Nat) : Nat := 1000 - frames

/-- The frames that are taken when a run is started on its own. -/
def ownFrames : Nat := 6

/-- What a run has come to. -/
def outcome (p : Progress) : Outcome :=
  ⟨p.phase, p.steps, p.cooldownEnd, p.locals⟩

/-- The fault with which a run fails: having no room left is a limit. -/
def surfaced : Fault → Fault
  | .plain .recursion _ => .script (.limit .stack) none
  | fault => fault

/-- The state with another phase. -/
def inPhase (phase : Phase) (s : State ω τ) : State ω τ :=
  { s with progress := { s.progress with phase } }

/-- The phase in which a run is left by a fault: it has failed, unless nobody catches the fault. -/
def fallen (fault : Fault) : Phase := if fault.isCaught then .failed else .running

/-- What becomes of a run whose statements came to an end. -/
def concluded : Except Stop Unit × State ω τ → Except Fault Outcome × State ω τ
  | (.ok (), s) => (.ok (outcome (inPhase .completed s).progress), inPhase .completed s)
  | (.error .abort, s) => (.ok (outcome (inPhase .aborted s).progress), inPhase .aborted s)
  | (.error (.fault fault), s) => (.error (surfaced fault), inPhase (fallen fault) s)

/-- Runs a program once.  A run that has started before is refused and stays as it is. -/
def run (env : Setting ω τ) (room : Nat) (program : Program) (s : State ω τ) :
    Except Fault Outcome × State ω τ :=
  if s.progress.phase != .idle then (.error (.used s.progress.phase), s)
  else concluded ((Exec.execAll env program room).runFrom (inPhase .running s))

end Interpreter

end TriggerEngine
