/-
**The state of a run.**

A run walks over a program.  Before it evaluates a node it counts a step and asks its watcher, if
it has one, whether to stop; so a watcher sees every node, and nothing happens after it has said
yes.  A run keeps local variables, the number of steps, the present depth, the end of a cooldown
that was set, and its phase; all of that stays as it is when the run stops early.

The machine that walks the tree has a bounded amount of room.  Every rule takes its share of it,
and a run that finds none left fails.  The world and the watcher are told how much is left for them.

Main definitions:

* `Progress` — what a run keeps;
* `Stop` — the ways in which a run ends early;
* `Watcher` — what is asked before each node;
* `State`, `Exec`, `Setting` — states, computations on them, and what does not change during a run;
* `Exec.consult` — asking the world for something besides a call;
* `Exec.visit`, `Exec.enter`, `Exec.begin` — the ways into a node.
-/

import TriggerEngine.Config
import TriggerEngine.Host.Binding
import TriggerEngine.Syntax.Misfit

set_option autoImplicit false

namespace TriggerEngine

/-! ### States -/

/-- Local variables. -/
abbrev Locals := Dictionary Name Value

/-- The local variables of a table. -/
def Locals.ofTable (table : Table Value) : Locals :=
  ⟨table.entries.map fun (name, v) => (.word name, v)⟩

/-- The name under which a variable is kept: of names that agree the first one stays. -/
def Locals.nameFor (locals : Locals) (name : Name) : Name :=
  match name with
  | .word word => .word word
  | name => (locals.names.find? name.agrees).getD name

/-- What a run keeps. -/
structure Progress where
  /-- The local variables. -/
  locals : Locals
  /-- How many nodes have been visited. -/
  steps : Nat
  /-- How deep the run is in expressions and blocks. -/
  depth : Nat
  /-- When the cooldown ends that was set last, if one was. -/
  cooldownEnd : Option Number
  /-- Where the end of the cooldown comes from. -/
  cooldownMark : Mark
  /-- The phase. -/
  phase : Phase

/-- A run that has not started, with its variables. -/
def Progress.start (locals : Table Value) : Progress :=
  ⟨.ofTable locals, 0, 0, none, .shared, .idle⟩

/-- The end of the cooldown as a value, or nothing. -/
def Progress.cooldownValue (p : Progress) : Value :=
  match p.cooldownEnd with
  | some time => .ofNumber time p.cooldownMark
  | none => .null

/-- How a run ends early. -/
inductive Stop where
  /-- The watcher said so. -/
  | abort
  /-- Something went wrong, or a loop is left or continued. -/
  | fault (fault : Fault)

/-- What is asked before a node is evaluated, with some room: whether to stop. -/
abbrev Watcher (ω τ : Type) := Nat → Node → Progress → Heap → ω → τ → Except Fault Bool × ω × τ

/-- What does not change during a run. -/
structure Setting (ω τ : Type) where
  /-- What the run needs of the world. -/
  binding : Binding ω
  /-- What the run is held to. -/
  limits : Limits
  /-- What is asked before each node. -/
  watcher : Option (Watcher ω τ)
  /-- What calls of the host are about. -/
  context : Value

/-- The state of a run in a world, with a watcher that remembers something. -/
structure State (ω τ : Type) where
  /-- Lists and mappings. -/
  heap : Heap
  /-- The world outside. -/
  world : ω
  /-- What the run keeps. -/
  progress : Progress
  /-- What the watcher remembers. -/
  watch : τ

/-- A computation on states that may stop. -/
abbrev Exec (ω τ : Type) := ExceptT Stop (StateM (State ω τ))

namespace Exec

variable {ω τ α : Type}

/-- A computation from a transition of states. -/
def ofStep (step : State ω τ → Except Stop α × State ω τ) : Exec ω τ α :=
  ExceptT.mk fun s => step s

/-- Runs a computation from a state. -/
def runFrom (x : Exec ω τ α) (s : State ω τ) : Except Stop α × State ω τ :=
  (ExceptT.run x) s

/-! ### Faults -/

/-- Fails. -/
def fail (fault : Fault) : Exec ω τ α :=
  throw (.fault fault)

/-- Fails for a reason at a line. -/
def failAt (line : Line) (cause : Cause) : Exec ω τ α :=
  fail (.ofCause line cause)

/-- Fails because a value is of the wrong kind. -/
def mismatch (line : Line) (what : Mismatch) : Exec ω τ α :=
  failAt line (.mismatch what)

/-- Fails because there is no room left. -/
def noRoom : Exec ω τ α :=
  fail (.plain .recursion "maximum recursion depth exceeded")

/-- A result that may be a fault. -/
def ofExcept (result : Except Fault α) : Exec ω τ α :=
  match result with
  | .ok a => pure a
  | .error fault => fail fault

/-! ### Parts of the state -/

/-- Changes the heap and computes something from it. -/
def onHeap (f : Heap → α × Heap) : Exec ω τ α :=
  ofStep fun ⟨heap, world, progress, watch⟩ =>
    match f heap with
    | (a, heap) => (.ok a, ⟨heap, world, progress, watch⟩)

/-- Changes what the run keeps. -/
def onProgress (f : Progress → Progress) : Exec ω τ Unit :=
  ofStep fun ⟨heap, world, progress, watch⟩ => (.ok (), ⟨heap, world, f progress, watch⟩)

/-- Lets the world reply. -/
def onWorld (f : Heap → ω → Except Fault α × Heap × ω) : Exec ω τ α :=
  ofStep fun ⟨heap, world, progress, watch⟩ =>
    match f heap world with
    | (.ok a, heap, world) => (.ok a, ⟨heap, world, progress, watch⟩)
    | (.error fault, heap, world) => (.error (.fault fault), ⟨heap, world, progress, watch⟩)

/-- A new list. -/
def newList (items : List Value) : Exec ω τ Value :=
  onHeap fun h => h.newList items.toArray

/-- A number as a value. -/
def newNumber (n : Number) : Exec ω τ Value :=
  onHeap fun h => h.newNumber n

/-- Sets a local variable. -/
def setLocal (name : Name) (v : Value) : Exec ω τ Unit :=
  onProgress fun p => { p with locals := p.locals.put (p.locals.nameFor name) v }

/-- Asks the world for something besides a call: the answer is what it puts in the place of what was
asked about. -/
def consult (env : Setting ω τ) (room : Nat) (inquiry : Inquiry) : Exec ω τ (Option Value) :=
  onWorld (env.binding.consult room inquiry)

/-- Whether a value counts as true. -/
def truthy (env : Setting ω τ) (room : Nat) (v : Value) : Exec ω τ Bool := do
  let answer ← consult env room (.truth v)
  return (← get).heap.truthy (answer.getD v)

/-! ### Into nodes -/

/-- Counts a step and asks the watcher, with some room left below the visit. -/
def visit (env : Setting ω τ) (node : Node) (room : Nat) : Exec ω τ Unit := do
  onProgress fun p => { p with steps := p.steps + 1 }
  let steps := (← get).progress.steps
  if env.limits.steps.most < steps then
    fail (node.faultAt (.limit (.steps env.limits.steps.text)))
  match env.watcher with
  | none => return
  | some watcher =>
    ofStep fun ⟨heap, world, progress, watch⟩ =>
      match watcher room node progress heap world watch with
      | (.error fault, world, watch) => (.error (.fault fault), ⟨heap, world, progress, watch⟩)
      | (.ok true, world, watch) => (.error .abort, ⟨heap, world, progress, watch⟩)
      | (.ok false, world, watch) => (.ok (), ⟨heap, world, progress, watch⟩)

/-- Runs a computation one level deeper, or fails at the limit; on every way out the depth is what
it was. -/
def deeper (most : Nat) (limit : Unit → Fault) (x : Exec ω τ α) : Exec ω τ α :=
  ofStep fun ⟨heap, world, progress, watch⟩ =>
    let depth := progress.depth
    let inner := { progress with depth := depth + 1 }
    let (result, s) :=
      if most < depth + 1 then
        (.error (.fault (limit ())), ⟨heap, world, inner, watch⟩)
      else x.runFrom ⟨heap, world, inner, watch⟩
    match s with
    | ⟨heap, world, progress, watch⟩ =>
      (result, ⟨heap, world, { progress with depth := progress.depth - 1 }, watch⟩)

/-- Evaluates a node as an expression: `rule` is told the room that is left for it.  Telling what
kind of expression it is takes some room as well, unless it is a number. -/
def enter (env : Setting ω τ) (node : Node) (room : Nat) (rule : Nat → Exec ω τ α) :
    Exec ω τ α :=
  match room with
  | 0 => noRoom
  | room + 1 =>
    deeper env.limits.depth.most
        (fun _ => node.faultAt (.limit (.expression env.limits.depth.text))) do
      match room with
      | 0 => noRoom
      | room + 1 =>
        visit env node room
        if room == 0 && !node.isNumber then noRoom
        rule room

/-- Executes a node as a statement: `rule` is told the room that is left for it. -/
def begin (env : Setting ω τ) (node : Node) (room : Nat) (rule : Nat → Exec ω τ Unit) :
    Exec ω τ Unit := do
  if room == 0 then noRoom
  visit env node (room - 1)
  rule room

/-- Goes on with one unit of room less. -/
def within (room : Nat) (rule : Nat → Exec ω τ α) : Exec ω τ α :=
  match room with
  | 0 => noRoom
  | room + 1 => rule room

/-- Executes a block: `rule` is told the room that is left for its statements. -/
def enterBlock (env : Setting ω τ) (line : Line) (room : Nat) (rule : Nat → Exec ω τ Unit) :
    Exec ω τ Unit :=
  within room fun room =>
    deeper env.limits.depth.most
      (fun _ => .ofCause line (.limit (.block env.limits.depth.text))) (within room rule)

/-! ### Loops -/

/-- Executes the body of a loop; the answer is whether the loop goes on. -/
def round (body : Exec ω τ Unit) : Exec ω τ Bool :=
  ofStep fun s =>
    match body.runFrom s with
    | (.ok (), s) => (.ok true, s)
    | (.error (.fault (.leave _ _)), s) => (.ok false, s)
    | (.error (.fault (.next _ _)), s) => (.ok true, s)
    | (.error stop, s) => (.error stop, s)

/-- How many rounds a loop can have at most that visits a node in each. -/
def rounds (env : Setting ω τ) : Exec ω τ Nat := do
  return env.limits.steps.most + 1 - (← get).progress.steps

/-- Repeats a body as long as a test holds. -/
def repeatWhile (test : Exec ω τ Bool) (body : Exec ω τ Unit) : Nat → Exec ω τ Unit
  | 0 => noRoom
  | fuel + 1 => do
    if ← test then
      if ← round body then repeatWhile test body fuel

/-- Executes a body for each of some values. -/
def forEach (name : Name) (body : Exec ω τ Unit) : List Value → Exec ω τ Unit
  | [] => return
  | v :: rest => do
    setLocal name v
    if ← round body then forEach name body rest

/-- Executes a body for a number of whole numbers from `first` on. -/
def forRange (name : Name) (body : Exec ω τ Unit) : Nat → Int → Exec ω τ Unit
  | 0, _ => return
  | count + 1, first => do
    setLocal name (← newNumber (.int first))
    if ← round body then forRange name body count (first + 1)

/-- Executes a body for the items of a sequence of the host from place `i` on. -/
def forItems (env : Setting ω τ) (room : Nat) (name : Name) (id : Nat) (body : Exec ω τ Unit) :
    Nat → Nat → Exec ω τ Unit
  | 0, _ => noRoom
  | fuel + 1, i => do
    match ← onWorld (env.binding.item? room id i) with
    | none => return
    | some v =>
      setLocal name v
      if ← round body then forItems env room name id body fuel (i + 1)

end Exec

end TriggerEngine
