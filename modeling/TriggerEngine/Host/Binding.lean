/-
**Bindings.**

A run needs little of what is outside of it: whether a name is registered, calls of what is
registered and of callables, attributes and items of objects, the globals and the clock.  A binding
offers just that over some world, so a run can be studied for every host there could be; the host
with its registries is one such world, and a larger world in which a host has a seat is another.

Where a run needs something that is no call, the world is asked first.  It may do something then,
fail, or put a value in the place of the one that is asked about.

Calls are given the room that is left below them, since a call may lead into a further run; so are
inquiries and readings of items.

Main definitions:

* `Binding` — what a run needs;
* `Binding.fold` — going through all items of a sequence, if that comes to an end;
* `Seat`, `Seat.binding` — the binding of a world in which a host has a seat;
* `Host.binding` — the binding of a host on its own.
-/

import TriggerEngine.Host.Basic

set_option autoImplicit false

namespace TriggerEngine

/-- What a run needs of the world `ω` outside. -/
structure Binding (ω : Type) where
  /-- The labels of objects. -/
  label : ω → Nat → String
  /-- Whether a name is registered for a role. -/
  isRegistered : Role → String → ω → Bool
  /-- Calls what is registered, with arguments and a context. -/
  invoke : Nat → Role → String → List Value → Value → Heap → ω → Reply ω
  /-- Calls a callable with arguments. -/
  call : Nat → Nat → List Value → Heap → ω → Reply ω
  /-- An attribute of an object. -/
  readAttribute : Nat → String → ω → Except Fault Value
  /-- The item of a sequence at a place, `none` behind the last one. -/
  item? : Nat → Nat → Nat → Heap → ω → Except Fault (Option Value) × Heap × ω
  /-- What the world does at an inquiry, and what it puts in the place of what was asked about. -/
  consult : Nat → Inquiry → Heap → ω → Except Fault (Option Value) × Heap × ω
  /-- Further members of texts, numbers and lists. -/
  further : Value → String → ω → Option Value
  /-- The size of a text or list that there is no memory for. -/
  memory : ω → Nat
  /-- A global, or nothing. -/
  readGlobal : String → ω → Value
  /-- Sets a global. -/
  writeGlobal : String → Value → ω → ω
  /-- The time. -/
  clock : ω → Number

/-- Goes through the items of a sequence from place `i` on and has each of them taken; there is no
result if they have no end. -/
def Binding.fold {ω α : Type} (binding : Binding ω) (room id : Nat)
    (take : α → Value → Heap → α × Heap) (i : Nat) (a : α) (h : Heap) (w : ω) :
    Option (Except Fault α × Heap × ω) :=
  match binding.item? room id i h w with
  | (.error fault, h, w) => some (.error fault, h, w)
  | (.ok none, h, w) => some (.ok a, h, w)
  | (.ok (some v), h, w) => binding |>.fold room id take (i + 1) (take a v h).1 (take a v h).2 w
partial_fixpoint

/-- A host's place in a world. -/
structure Seat (ω : Type) where
  /-- The host. -/
  host : ω → Host
  /-- The world with another host. -/
  withHost : ω → Host → ω

namespace Seat

variable {ω : Type}

/-- How the world answers what the routine with a number asks for. -/
abbrev Service (ω : Type) := Nat → Request → Heap → ω → Reply ω

/-- Calls a routine whose arguments stand in a list: the call is written down, then the routine
does what it does. -/
def callRoutine (seat : Seat ω) (serve : Service ω) (id : Nat) (via : String) (list : Value)
    (args : List Value) (context : Value) (h : Heap) (w : ω) : Reply ω :=
  let host := seat.host w
  let routine := host.routine id
  let picture := h.picture host.label
  let host := host.record id
    ⟨routine.noun, routine.name, via, picture list, picture context⟩
  (routine.act ⟨list, args, context⟩).run (serve id) h (seat.withHost w host)

/-- Calls a callable. -/
def callValue (seat : Seat ω) (serve : Service ω) (id : Nat) (args : List Value) (h : Heap)
    (w : ω) : Reply ω :=
  match h.newList args.toArray with
  | (list, h) => seat.callRoutine serve id "fn" list args .null h w

/-- What the host says about a value that cannot be called. -/
def notCallable (v : Value) : Fault :=
  .plain .type ("'" ++ v.className ++ "' object is not callable")

/-- Calls something with a list of arguments and a context.  A member function finds one unit of
room less than there is below the call by name. -/
def callCallee (seat : Seat ω) (serve : Service ω) (room : Nat) (f : Host.Callee) (list : Value)
    (args : List Value) (context : Value) (h : Heap) (w : ω) : Reply ω :=
  match f with
  | .routine id via => seat.callRoutine serve id via list args context h w
  | .value (.fn id) => seat.callValue serve id [list, context] h w
  | .value (.method receiver member) =>
    match member.call (seat.host w).label (room - 1) receiver [list, context] h with
    | (result, h) => (result, h, w)
  | .value v => (.error (notCallable v), h, w)
  | .inert => (.error (notCallable .null), h, w)

/-- Calls a capability with some room left below the call. -/
def callWithin (seat : Seat ω) (serve : Service ω) (room : Nat) (method : Method)
    (c : Capability) (args : List Value) (context : Value) (h : Heap) (w : ω) : Reply ω :=
  match (seat.host w).selected method c with
  | .error fault => (.error fault, h, w)
  | .ok f =>
    match h.newList args.toArray with
    | (list, h) => seat.callCallee serve room f list args context h w

/-- Calls a capability from outside of all runs. -/
def callCapability (seat : Seat ω) (serve : Service ω) (method : Method) (c : Capability)
    (args : List Value) (context : Value) (h : Heap) (w : ω) : Reply ω :=
  seat.callWithin serve 1000 method c args context h w

/-- Calls what is registered under a name. -/
def invoke (seat : Seat ω) (serve : Service ω) (room : Nat) (role : Role) (name : String)
    (args : List Value) (context : Value) (h : Heap) (w : ω) : Reply ω :=
  let r := (seat.host w).registry role
  match r.entries.get? name with
  | none => (.error (.plain .key (Text.quote name)), h, w)
  | some c => seat.callWithin serve room r.sort.method c args context h w

/-- What the host does at an inquiry. -/
def runCode (seat : Seat ω) (serve : Service ω) (inquiry : Inquiry) (h : Heap) (w : ω) :
    Except Fault (Option Value) × Heap × ω :=
  match (seat.host w).code inquiry with
  | none => (.ok none, h, w)
  | some id =>
    match seat.callValue serve id inquiry.values h w with
    | (result, h, w) => (result.map some, h, w)

/-- What can be told at once to be wrong with an inquiry: the method of what is called under a name
cannot be read. -/
def flaw? (seat : Seat ω) (inquiry : Inquiry) (w : ω) : Option Fault :=
  match inquiry with
  | .lookup role name =>
    let r := (seat.host w).registry role
    (r.entries.get? name).bind fun c =>
      match (seat.host w).selected r.sort.method c with
      | .ok _ => none
      | .error fault => some fault
  | _ => none

/-- Asks the host for something besides a call. -/
def consult (seat : Seat ω) (serve : Service ω) (inquiry : Inquiry) (h : Heap) (w : ω) :
    Except Fault (Option Value) × Heap × ω :=
  match seat.runCode serve inquiry h w with
  | (.error fault, h, w) => (.error fault, h, w)
  | (.ok answer, h, w) =>
    match seat.flaw? inquiry w with
    | some fault => (.error fault, h, w)
    | none => (.ok answer, h, w)

/-- The item of a sequence of the host at a place.  Code of the host for that has the last word, and
says that there is no such item by being exhausted. -/
def item? (seat : Seat ω) (serve : Service ω) (id i : Nat) (h : Heap) (w : ω) :
    Except Fault (Option Value) × Heap × ω :=
  match seat.runCode serve (.item id i) h w with
  | (.ok none, h, w) => ((seat.host w).item? id i, h, w)
  | (.ok (some v), h, w) => (.ok (some v), h, w)
  | (.error (.plain .exhausted _), h, w) => (.ok none, h, w)
  | (.error fault, h, w) => (.error fault, h, w)

/-- The binding of a world in which a host has a seat.  `serve` is told the room that is left. -/
def binding (seat : Seat ω) (serve : Nat → Service ω) : Binding ω where
  label w := (seat.host w).label
  isRegistered role name w := ((seat.host w).registry role).entries.has name
  invoke room := seat.invoke (serve room) room
  call room := seat.callValue (serve room)
  readAttribute id name w := (seat.host w).readAttribute id name
  item? room := seat.item? (serve room)
  consult room := seat.consult (serve room)
  further v name w := (seat.host w).further v name
  memory w := (seat.host w).memory
  readGlobal name w := ((seat.host w).globals.get? name).getD .null
  writeGlobal name v w :=
    let host := seat.host w
    seat.withHost w { host with globals := host.globals.put name v }
  clock w := (seat.host w).clock

end Seat

/-- A host on its own. -/
def Host.seat : Seat Host := ⟨id, fun _ host => host⟩

/-- The binding of a host on its own. -/
def Host.binding : Binding Host :=
  Host.seat.binding fun _ => Host.serve

end TriggerEngine
