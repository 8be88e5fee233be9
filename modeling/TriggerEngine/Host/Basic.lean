/-
**The host.**

Everything outside of a script that a script can reach: objects with attributes, routines, the
registries under whose names routines are called, the globals and the clock.  Every call of a
routine is written down, with pictures of its arguments as they are at that moment, before the
routine does anything.

A host may run a routine of its own when it is asked for something that is no call: whether an
object counts as true, whether it equals another value, how it is written, what comes next in a
sequence, what the globals hold, what time it is, and what is to be called under a name.

Main definitions:

* `HostObject`, `HostRoutine`, `CallRecord` — what a host consists of;
* `Inquiry` — what a host is asked for besides calls;
* `Host` — the host;
* `Host.readAttribute` — attributes of objects;
* `Host.isReachable`, `Host.selected` — which capabilities are accepted, and what is called when one
  is;
* `Host.serve` — answering what routines ask for.
-/

import TriggerEngine.Host.Act
import TriggerEngine.Host.Registry
import TriggerEngine.Value.Member
import TriggerEngine.Value.Picture

set_option autoImplicit false

namespace TriggerEngine

/-- An object of the host. -/
structure HostObject where
  /-- Its label. -/
  label : String
  /-- Attributes that are values. -/
  attributes : Table Value
  /-- Attributes that are routines, by their numbers. -/
  methods : Table Nat
  /-- Attributes that cannot be read. -/
  broken : Table Fault
  /-- The items of a sequence. -/
  items : Array Value
  /-- What a sequence ends with instead of just ending. -/
  flaw : Option Fault

/-- A routine as the host knows it. -/
structure HostRoutine where
  /-- What the routine was made for. -/
  noun : String
  /-- The name under which it is known. -/
  name : String
  /-- What it does. -/
  act : Routine

/-- A call of a routine. -/
structure CallRecord where
  /-- What the routine was made for. -/
  noun : String
  /-- The name under which it is known. -/
  name : String
  /-- The way it was reached. -/
  via : String
  /-- The arguments. -/
  args : Picture
  /-- What the call was about. -/
  context : Picture

/-- What a host is asked for besides calls. -/
inductive Inquiry where
  /-- Whether a value counts as true. -/
  | truth (v : Value)
  /-- Whether two values are equal. -/
  | equality (a b : Value)
  /-- How a value is written. -/
  | text (v : Value)
  /-- What a sequence has at a place. -/
  | item (id i : Nat)
  /-- What is called under a name. -/
  | lookup (role : Role) (name : String)
  /-- A global is read. -/
  | reading (name : String)
  /-- A global is set. -/
  | writing (name : String) (v : Value)
  /-- What time it is. -/
  | time

/-- The values that an inquiry is about. -/
def Inquiry.values : Inquiry → List Value
  | .truth v => [v]
  | .equality a b => [a, b]
  | .text v => [v]
  | .writing _ v => [v]
  | _ => []

/-- The host. -/
structure Host where
  /-- The objects. -/
  objects : Array HostObject := #[]
  /-- The routines. -/
  routines : Array HostRoutine := #[]
  /-- How often each routine has been called. -/
  uses : Array Nat := #[]
  /-- The executors. -/
  executors : Registry := .empty (.role .executor)
  /-- The conditions. -/
  conditions : Registry := .empty (.role .condition)
  /-- The placeholders. -/
  placeholders : Registry := .empty (.role .placeholder)
  /-- The globals. -/
  globals : Table Value := .empty
  /-- The globals whose names are no texts; scripts cannot name them, but routines can. -/
  unnamed : Array (Value × Value) := #[]
  /-- The time. -/
  clock : Number := .float 1000
  /-- How often the time has been changed. -/
  changes : Nat := 0
  /-- The time since the host started. -/
  elapsed : Number := .float 0
  /-- The calls, the last one first. -/
  calls : List CallRecord := []
  /-- The routine that is run at an inquiry, if there is one. -/
  code : Inquiry → Option Nat := fun _ => none
  /-- Further members of texts, numbers and lists. -/
  further : Value → String → Option Value := fun _ _ => none
  /-- The size of a text or list that there is no memory for. -/
  memory : Nat := 2 ^ (32 : Nat)

namespace Host

/-! ### Objects -/

/-- The labels of the objects. -/
def label (host : Host) (id : Nat) : String :=
  (host.objects[id]?.map HostObject.label).getD ""

/-- What the host says about an attribute that is not there. -/
def noAttribute (name : String) : Fault :=
  .plain .attribute name

/-- An attribute of an object. -/
def readAttribute (host : Host) (id : Nat) (name : String) : Except Fault Value :=
  match host.objects[id]? with
  | none => .error (noAttribute name)
  | some object =>
    match object.attributes.get? name, object.methods.get? name, object.broken.get? name with
    | some v, _, _ => .ok v
    | none, some routine, _ => .ok (.fn routine)
    | none, none, some fault => .error fault
    | none, none, none => .error (noAttribute name)

/-- An attribute of any value that may be missing; anything that is no object of the host has
none. -/
def findAttribute (host : Host) (v : Value) (name : String) : Except Fault (Option Value) :=
  match v with
  | .object id _ =>
    match host.readAttribute id name with
    | .ok v => .ok (some v)
    | .error fault => if fault.isNoAttribute then .ok none else .error fault
  | _ => .ok none

/-- The item of a sequence at a place, `none` behind the last one. -/
def item? (host : Host) (id : Nat) (i : Nat) : Except Fault (Option Value) :=
  match host.objects[id]? with
  | none => .ok none
  | some object =>
    match object.items[i]?, object.flaw with
    | some v, _ => .ok (some v)
    | none, some fault => .error fault
    | none, none => .ok none

/-! ### Capabilities -/

/-- The registry for a role. -/
def registry (host : Host) : Role → Registry
  | .executor => host.executors
  | .condition => host.conditions
  | .placeholder => host.placeholders

/-- The host with a registry for a role replaced. -/
def withRegistry (host : Host) (role : Role) (r : Registry) : Host :=
  match role with
  | .executor => { host with executors := r }
  | .condition => { host with conditions := r }
  | .placeholder => { host with placeholders := r }

/-- Something that may be called. -/
inductive Callee where
  /-- A routine, reached in a way that is written down. -/
  | routine (id : Nat) (via : String)
  /-- A value, which gets the arguments and the context as its two arguments. -/
  | value (v : Value)
  /-- Anything else of the host; it cannot be called. -/
  | inert

/-- Whether something can be called. -/
def Callee.isCallable : Callee → Bool
  | .routine _ _ => true
  | .value v => v.isCallable
  | .inert => false

/-- The method of a capability, if it has an attribute of that name. -/
def methodOf (host : Host) (method : Method) : Capability → Except Fault (Option Callee)
  | .routine id style =>
    .ok <| match style with
      | .direct => none
      | .only m => if m == method then some (.routine id method.name) else none
      | .both => some (.routine id method.name)
      | .shadowed => some .inert
  | .value v => do return (← host.findAttribute v method.name).map .value

/-- A capability as something to call directly. -/
def itself : Capability → Callee
  | .routine id style => if style.isDirect then .routine id "call" else .inert
  | .value v => .value v

/-- Whether a registry accepts a capability: its method can be called, or it can be called
itself. -/
def isReachable (host : Host) (method : Method) (c : Capability) : Except Fault Bool := do
  return (← host.methodOf method c).any Callee.isCallable || (itself c).isCallable

/-- What is called when a capability is: its method, or itself if that cannot be called. -/
def selected (host : Host) (method : Method) (c : Capability) : Except Fault Callee := do
  match ← host.methodOf method c with
  | some f => return (if f.isCallable then f else itself c)
  | none => return itself c

/-- Hands a capability to the registry for a role, or asks it for a decorator. -/
def submit (host : Host) (role : Role) (name : String) (c? : Option Capability) (replace : Bool) :
    Except Fault (Registry.Receipt × Host) := do
  let r := host.registry role
  let (receipt, r) ← r.submit (host.isReachable r.sort.method) name c? replace
  return (receipt, host.withRegistry role r)

/-- Registers a capability for a role. -/
def register (host : Host) (role : Role) (name : String) (c : Capability) (replace : Bool) :
    Except Fault Host :=
  (host.submit role name (some c) replace).map Prod.snd

/-! ### Calls -/

/-- Writes down a call, and counts it. -/
def record (host : Host) (id : Nat) (call : CallRecord) : Host :=
  { host with calls := call :: host.calls, uses := host.uses.modify id (· + 1) }

/-- The routine with a number. -/
def routine (host : Host) (id : Nat) : HostRoutine :=
  host.routines[id]?.getD ⟨"", "", Routine.constant .null⟩

/-! ### Requests -/

/-- The value of the global under a key, if it is there. -/
def findGlobal (host : Host) (key : Value) : Except Fault (Option Value) :=
  match key with
  | .str s _ => .ok (host.globals.get? s)
  | v => if v.isHashable then .ok (Heap.entryGet? host.unnamed v) else .error (.unhashable v)

/-- Sets the global under a key. -/
def writeGlobal (host : Host) (key v : Value) : Except Fault Host :=
  match key with
  | .str s _ => .ok { host with globals := host.globals.put s v }
  | key =>
    if key.isHashable then .ok { host with unnamed := Heap.entryPut host.unnamed key v }
    else .error (.unhashable key)

/-- Removes the global under a key. -/
def dropGlobal (host : Host) (key : Value) : Except Fault Host :=
  match key with
  | .str s _ => .ok { host with globals := host.globals.erase s }
  | v =>
    if v.isHashable then
      .ok { host with unnamed := host.unnamed.filter fun entry => !Heap.sameKey entry.1 v }
    else .error (.unhashable v)

/-- Lets time pass. -/
def wait (host : Host) (seconds : Value) : Except Fault Host :=
  match seconds.numeric? with
  | none =>
    .error (.plain .type ("unsupported operand type(s) for +=: '" ++
      (match host.clock with
        | .int _ => "int"
        | .float _ => "float") ++ "' and '" ++ seconds.className ++ "'"))
  | some n =>
    match host.clock.add n, host.elapsed.add n with
    | .ok clock, .ok elapsed => .ok { host with clock, elapsed, changes := host.changes + 1 }
    | .error t, _ => .error (.ofTrouble t)
    | _, .error t => .error (.ofTrouble t)

/-- What the host says when there is no manager to offer something. -/
def noManager (facility : Facility) : Fault :=
  .plain .attribute ("'NoneType' object has no attribute '" ++ facility.name ++ "'")

/-- The time as a value; it stays one and the same until the time changes. -/
def time (host : Host) : Value :=
  .ofNumber host.clock (.clock host.changes)

/-- A reply that tells nothing but whether the host could do what it was asked for. -/
def replied (h : Heap) (host : Host) : Except Fault Host → Reply Host
  | .ok host => (.ok .null, h, host)
  | .error fault => (.error fault, h, host)

/-- Answers what a routine asks for. -/
def serve (id : Nat) (request : Request) (h : Heap) (host : Host) : Reply Host :=
  match request with
  | .uses => (.ok (.whole (host.uses.getD id 0)), h, host)
  | .push (.list ref) item => (.ok .null, h.modifyList ref (·.push item), host)
  | .push (.object id _) _ => ((host.readAttribute id "append").map fun _ => .null, h, host)
  | .push v _ =>
    (.error (.plain .attribute
      ("'" ++ v.className ++ "' object has no attribute 'append'")), h, host)
  | .readGlobal name => ((host.findGlobal name).map (·.getD .null), h, host)
  | .writeGlobal name v => replied h host (host.writeGlobal name v)
  | .dropGlobal name => replied h host (host.dropGlobal name)
  | .now => (.ok host.time, h, host)
  | .wait seconds => replied h host (host.wait seconds)
  | .manager facility => (.error (noManager facility), h, host)
  | .shutdown => (.error (noManager .shutdown), h, host)
  | .fire _ _ => (.error (noManager .fire), h, host)
  | .peek _ => (.error (noManager .cooldowns), h, host)

end Host

end TriggerEngine
