/-
**What routines of the host do.**

A routine is called with arguments and a context, and either returns a value or raises a fault.
In between it may ask for things it does not hold itself: the globals, the clock, a list it was
given, the manager of the triggers.  So what a routine does on a call is a tree: an answer, a fault,
or a question with a continuation for every reply.  The tree says nothing about how questions are
answered; that is the business of the world in which the routine is run.

Main definitions:

* `Facility` — what the manager is asked for;
* `Request` — the questions;
* `Act`, `Act.run` — what a routine does, and doing it;
* `Call` — what a routine is called with;
* `Routine` — a routine, and the simplest ones by name.
-/

import TriggerEngine.Fault
import TriggerEngine.Value.Heap

set_option autoImplicit false

namespace TriggerEngine

/-! ### Acts -/

/-- What the manager offers to routines. -/
inductive Facility where
  /-- Shutting down. -/
  | shutdown
  /-- Firing triggers. -/
  | fire
  /-- The store of cooldowns. -/
  | cooldowns

/-- The word for a facility. -/
def Facility.name : Facility → String
  | .shutdown => "shutdown"
  | .fire => "fire"
  | .cooldowns => "cooldowns"

/-- What a routine may ask for. -/
inductive Request where
  /-- How often the routine has been called, this call included. -/
  | uses
  /-- Puts an item at the end of a list. -/
  | push (list item : Value)
  /-- The value of a global. -/
  | readGlobal (name : Value)
  /-- Sets a global. -/
  | writeGlobal (name value : Value)
  /-- Removes a global. -/
  | dropGlobal (name : Value)
  /-- The time. -/
  | now
  /-- Lets time pass. -/
  | wait (seconds : Value)
  /-- Whether there is a manager to offer something. -/
  | manager (facility : Facility)
  /-- Shuts the manager down. -/
  | shutdown
  /-- Fires a trigger of the manager. -/
  | fire (name event : Value)
  /-- The end of an actor's cooldown. -/
  | peek (actor : Value)

/-- What a routine does on a call. -/
inductive Act where
  /-- Returns a value. -/
  | done (v : Value)
  /-- Raises a fault. -/
  | fail (fault : Fault)
  /-- Asks for something and goes on with the reply. -/
  | ask (request : Request) (next : Except Fault Value → Act)

instance : Inhabited Act := ⟨.done .null⟩

/-- A reply: a value or a fault, with the heap and the world afterwards. -/
abbrev Reply (ω : Type) := Except Fault Value × Heap × ω

/-- Does what a routine does, in a world that answers its questions.  Nothing comes after a question
whose answer does not come. -/
def Act.run {ω : Type} (serve : Request → Heap → ω → Reply ω) : Act → Heap → ω → Reply ω
  | .done v, h, w => (.ok v, h, w)
  | .fail fault, h, w => (.error fault, h, w)
  | .ask request next, h, w =>
    match serve request h w with
    | (.error .unreturned, h, w) => (.error .unreturned, h, w)
    | (reply, h, w) => (next reply).run serve h w

/-- Asks for something and returns it. -/
def Act.just (request : Request) : Act :=
  .ask request fun reply =>
    match reply with
    | .ok v => .done v
    | .error fault => .fail fault

/-! ### Routines -/

/-- What a routine is called with. -/
structure Call where
  /-- The list of the arguments. -/
  list : Value
  /-- The arguments. -/
  args : List Value
  /-- What the call is about. -/
  context : Value

/-- A routine of the host. -/
abbrev Routine := Call → Act

namespace Routine

/-- What the host says about an argument that is not there. -/
def noArgument : Act :=
  .fail (.plain .index "list index out of range")

/-- Goes on with the first argument. -/
def withFirst (next : Value → Act) : Routine := fun call =>
  match call.args with
  | a :: _ => next a
  | [] => noArgument

/-- Goes on with the first two arguments. -/
def withTwo (next : Value → Value → Act) : Routine := fun call =>
  match call.args with
  | a :: b :: _ => next a b
  | _ => noArgument

/-- Returns a value. -/
def constant (v : Value) : Routine := fun _ => .done v

/-- Raises a fault. -/
def raising (fault : Fault) : Routine := fun _ => .fail fault

/-- Returns its first argument. -/
def echo : Routine := withFirst .done

/-- Returns the list of its arguments. -/
def arguments : Routine := fun call => .done call.list

/-- Returns how many arguments it got. -/
def arity : Routine := fun call => .done (.whole call.args.length)

/-- Returns how often it has been called. -/
def uses : Routine := fun _ => .just .uses

/-- Returns its context. -/
def context : Routine := fun call => .done call.context

/-- Returns one value after the other, the last one from then on. -/
def cycle (values : Array Value) : Routine := fun _ =>
  .ask .uses fun reply =>
    match reply with
    | .ok (.int n _) =>
      match values[(min n.toNat values.size) - 1]? with
      | some v => .done v
      | none => noArgument
    | _ => noArgument

/-- Puts a value at the end of the list that is its first argument. -/
def append (v : Value) : Routine := withFirst fun list => .just (.push list v)

/-- Sets the global named by its first argument. -/
def writeGlobal : Routine := withTwo fun name v => .just (.writeGlobal name v)

/-- Returns the global named by its first argument. -/
def readGlobal : Routine := withFirst fun name => .just (.readGlobal name)

/-- Removes the global named by its first argument. -/
def dropGlobal : Routine := withFirst fun name => .just (.dropGlobal name)

/-- Lets time pass. -/
def wait : Routine := withFirst fun seconds => .just (.wait seconds)

/-- Returns the time. -/
def now : Routine := fun _ => .just .now

/-- Goes on if there is a manager to offer something.  That is asked before the arguments are
looked at. -/
def withManager (facility : Facility) (next : Routine) : Routine := fun call =>
  .ask (.manager facility) fun reply =>
    match reply with
    | .ok _ => next call
    | .error fault => .fail fault

/-- Shuts the manager down. -/
def shutdown : Routine := withManager .shutdown fun _ => .just .shutdown

/-- Fires the trigger named by its first argument, for its second argument or else for its
context. -/
def fire : Routine := withManager .fire fun call =>
  match call.args with
  | name :: event :: _ => .just (.fire name event)
  | [name] => .just (.fire name call.context)
  | [] => noArgument

/-- Returns the end of the cooldown of its first argument. -/
def peek : Routine := withManager .cooldowns (withFirst fun actor => .just (.peek actor))

end Routine

end TriggerEngine
