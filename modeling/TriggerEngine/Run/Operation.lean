/-
**Operations on values.**

What operators, indexes, members and calls do with values that have been computed already.  Which
values an operation has a meaning for is decided by their kinds; for all others the script fails
with a complaint that quotes the expression.

Main definitions:

* `Exec.textOf` — a value as a script writes it;
* `Exec.binary`, `Exec.signed` — operators;
* `Exec.itemOf` — indexing;
* `Exec.memberOf` — members;
* `Exec.callMember`, `Exec.callValue`, `Exec.callNamed` — calls.
-/

import TriggerEngine.Run.State
import TriggerEngine.Syntax.Printer

set_option autoImplicit false

namespace TriggerEngine

namespace Exec

variable {ω τ : Type}

/-! ### Text and equality -/

/-- The fault of a value that cannot be written. -/
def unwritable : Heap.Unwritable → Fault
  | .tooDeep => .plain .recursion "maximum recursion depth exceeded"
  | .tooLong => .tooManyDigits

/-- A value as a script writes it. -/
def textOf (env : Setting ω τ) (room : Nat) (v : Value) : Exec ω τ String := do
  let answer ← consult env room (.text v)
  let s ← get
  match s.heap.text (env.binding.label s.world) room (answer.getD v) with
  | .ok text => return text
  | .error reason => fail (unwritable reason)

/-- A text that was put together, as a value. -/
def builtText (s : String) : Exec ω τ Value :=
  onHeap fun h => h.builtText s

/-- A value as a script writes it, as a value itself.  A text is itself, and the words for truth
values and nothing are always the same. -/
def writtenOf (env : Setting ω τ) (room : Nat) (v : Value) : Exec ω τ Value :=
  match v with
  | .str s m => return .str s m
  | v => do
    let s ← textOf env room v
    if v.isNull || v.isBool then return .text s
    builtText s

/-- Two texts one after the other; an empty one leaves the other as it is. -/
def concatenation (a b : Value) : Exec ω τ Value :=
  match a, b with
  | .str s _, .str t _ =>
    if s.isEmpty then return b
    else if t.isEmpty then return a
    else builtText (s ++ t)
  | a, _ => return a

/-- Whether two values are equal.  If the world has an answer, it counts as a truth value. -/
def valuesEqual (env : Setting ω τ) (room : Nat) (a b : Value) : Exec ω τ Bool := do
  match ← consult env room (.equality a b) with
  | some answer => return (← get).heap.truthy answer
  | none =>
    match (← get).heap.valuesEqual? room a b with
    | some verdict => return verdict
    | none => fail ListMember.tooDeep

/-! ### Repetition -/

/-- The largest size of a text or list. -/
def sizeBound : Nat := 2 ^ (63 : Nat)

/-- How often something of a size is repeated, with some memory: not at all if the count is
negative. -/
def repetitions (memory size : Nat) (n : Int) (tooLong : Fault) : Except Fault Nat :=
  if n < -(sizeBound : Int) || (sizeBound : Int) ≤ n then
    .error (.plain .overflow "cannot fit 'int' into an index-sized integer")
  else if size == 0 then .ok 0
  else if sizeBound ≤ size * n.toNat then .error tooLong
  else if memory < size * n.toNat then .error (.plain .memory "")
  else .ok n.toNat

/-- A text repeated; once is the text itself. -/
def repeatText (env : Setting ω τ) (text : Value) (s : String) (n : Int) : Exec ω τ Value := do
  let count ← ofExcept (repetitions (env.binding.memory (← get).world) s.length n
    (.plain .overflow "repeated string is too long"))
  if count == 1 then return text
  builtText (String.join (List.replicate count s))

/-- The items of a list repeated, with some memory. -/
def repeatItems (memory : Nat) (items : List Value) (n : Int) : Except Fault (List Value) :=
  (repetitions memory items.length n (.plain .memory "")).map fun count =>
    (List.replicate count items).flatten

/-! ### Operators -/

/-- The result of an operation on numbers. -/
def numeric (result : Except Number.Trouble Number) : Exec ω τ Value :=
  match result with
  | .ok n => newNumber n
  | .error trouble => fail (.ofTrouble trouble)

/-- A quotient or remainder; there is none by zero. -/
def quotient (line : Line) (b : Number) (result : Except Number.Trouble Number) :
    Exec ω τ Value :=
  if b.isZero then failAt line .divisionByZero else numeric result

/-- The order of two numbers or two texts, if a comparison of them has a meaning. -/
def ordered? (op : Operator) (a b : Value) : Option Bool :=
  match a, b with
  | .str s _, .str t _ =>
    match op with
    | .gt => some (decide (t < s))
    | .lt => some (decide (s < t))
    | .ge => some (!decide (s < t))
    | .le => some (!decide (t < s))
    | _ => none
  | a, b =>
    match a.number?, b.number? with
    | some x, some y =>
      match op with
      | .gt => some (y.lt x)
      | .lt => some (x.lt y)
      | .ge => some (y.le x)
      | .le => some (x.le y)
      | _ => none
    | _, _ => none

/-- A quotation of an expression, written only when it is needed. -/
abbrev Quotation := Unit → Except Fault String

/-- Fails with a complaint that quotes an expression. -/
def quoting {α : Type} (line : Line) (expression : Quotation) (what : String → Mismatch) :
    Exec ω τ α := do
  mismatch line (what (← ofExcept (expression ())))

/-- Whether a value is a text. -/
def isText : Value → Bool
  | .str _ _ => true
  | _ => false

/-- An operator between two values.  `expression` is the operation as it is quoted. -/
def binary (env : Setting ω τ) (room : Nat) (op : Operator) (a b : Value)
    (expression : Quotation) (line : Line) : Exec ω τ Value :=
  let refused (_ : Unit) : Exec ω τ Value :=
    quoting line expression fun text => .operator text a.typeName b.typeName
  match op with
  | .add =>
    match a, b with
    | .list r, .list s => onHeap fun h => h.newList (h.list r ++ h.list s)
    | a, b =>
      match a.number?, b.number? with
      | some x, some y => numeric (x.add y)
      | _, _ =>
        if isText a || isText b then do
          let left ← writtenOf env room a
          let right ← writtenOf env room b
          concatenation left right
        else refused ()
  | .sub =>
    match a.number?, b.number? with
    | some x, some y => numeric (x.sub y)
    | _, _ => refused ()
  | .mul =>
    match a, b with
    | .str s _, .int n _ => repeatText env a s n
    | .list r, .int n _ => do
      let s ← get
      newList (← ofExcept (repeatItems (env.binding.memory s.world) (s.heap.list r).toList n))
    | a, b =>
      match a.number?, b.number? with
      | some x, some y => numeric (x.mul y)
      | _, _ => refused ()
  | .div =>
    match a.number?, b.number? with
    | some x, some y => quotient line y (x.div y)
    | _, _ => refused ()
  | .mod =>
    match a.number?, b.number? with
    | some x, some y => quotient line y (x.mod y)
    | _, _ => refused ()
  | .eq => do return .bool (← valuesEqual env room a b)
  | .ne => do return .bool (!(← valuesEqual env room a b))
  | op =>
    match ordered? op a b with
    | some verdict => return .bool verdict
    | none => refused ()

/-- A sign before a value; every operator but minus is taken as plus. -/
def signed (op : Operator) (v : Value) (expression : Quotation) (line : Line) :
    Exec ω τ Value :=
  match v.number? with
  | none => quoting line expression (.sign (op == .sub) v.typeName)
  | some n => if op == .sub then newNumber n.neg else return v

/-! ### Items -/

/-- The item of a value at an index or under a key. -/
def itemOf (env : Setting ω τ) (room : Nat) (target key : Value)
    (expression target' : Quotation) (line : Line) : Exec ω τ Value := do
  let h := (← get).heap
  let place (length : Nat) : Exec ω τ Nat :=
    match key.int? with
    | none => quoting line expression (.index key.typeName)
    | some i =>
      if 0 ≤ i && i < length then return i.toNat
      else if (Number.intText? i).isNone then fail .tooManyDigits
      else failAt line (.indexOutOfRange i length)
  match target with
  | .list ref =>
    let items := h.list ref
    return items.getD (← place items.size) .null
  | .str s _ =>
    let cs := s.toList
    let i ← place cs.length
    onHeap fun h => h.newText (String.ofList ((cs.drop i).take 1))
  | .map ref =>
    if !key.isHashable then fail (.unhashable key)
    match h.mapGet? ref key with
    | some v => return v
    | none => failAt line (.undefinedMember (← textOf env room key))
  | v => quoting line target' (.notIndexable · v.typeName)

/-! ### Members -/

/-- A member of a plain value, of those that are known here. -/
def plainMember? (h : Heap) (v : Value) (name : String) : Option (Value × Heap) :=
  match v with
  | .str _ _ => (Member.find? Member.ofText name).map fun m => (.method v m, h)
  | .list _ => (Member.find? Member.ofList name).map fun m => (.method v m, h)
  | .float _ _ =>
    match name with
    | "real" => some (v, h)
    | "imag" => some (h.newNumber (.float 0))
    | "is_integer" => some (.method v .isInteger, h)
    | _ => none
  | .int _ _ =>
    match name with
    | "real" => some (v, h)
    | "numerator" => some (v, h)
    | "imag" => some (.whole 0, h)
    | "denominator" => some (.whole 1, h)
    | "bit_length" => some (.method v .bitLength, h)
    | _ => none
  | .bool b =>
    let n : Int := if b then 1 else 0
    match name with
    | "real" => some (.whole n, h)
    | "numerator" => some (.whole n, h)
    | "imag" => some (.whole 0, h)
    | "denominator" => some (.whole 1, h)
    | "bit_length" => some (.method v .bitLength, h)
    | _ => none
  | _ => none

/-- What the host says when a name that is no word is asked how it starts. -/
def notWord (name : Name) : Fault :=
  .plain .attribute ("'" ++ name.className ++ "' object has no attribute 'startswith'")

/-- The fault of an attribute that could not be read, with its name. -/
def attributeFault (name : String) (line : Line) (fault : Fault) : Fault :=
  if fault.isNoAttribute then .ofCause line (.undefinedMember name)
  else if !fault.isCaught then fault
  else
    match fault.wording with
    | .ok text => .ofCause line (.hostCall name fault.className text)
    | .error unworded => unworded

/-- Reads an attribute of an object. -/
def attributeIn (binding : Binding ω) (id : Nat) (name : String) (line : Line) (h : Heap) (w : ω) :
    Reply ω :=
  ((binding.readAttribute id name w).mapError (attributeFault name line), h, w)

/-- A member of a value: a key of a mapping, an attribute of an object, or what plain values offer.
Names that start with an underscore are not for scripts. -/
def memberOf (env : Setting ω τ) (target : Value) (name : Name) (line : Line) :
    Exec ω τ Value := do
  let s ← get
  match target with
  | .map ref =>
    match name.value?.bind (s.heap.mapGet? ref) with
    | some v => return v
    | none => failAt line (.undefinedMember name)
  | .null => mismatch line (.memberOfNull name.display)
  | target =>
    match name with
    | .word word =>
      if word.startsWith "_" then failAt line (.undefinedMember name)
      match target with
      | .object id _ =>
        onWorld (attributeIn env.binding id word line)
      | target =>
        match plainMember? s.heap target word, env.binding.further target word s.world with
        | some (v, h), _ => onHeap fun _ => (v, h)
        | none, some v => return v
        | none, none => failAt line (.undefinedMember name)
    | name => fail (notWord name)

/-! ### Calls -/

/-- The fault of a call: the engine's own faults and what no call catches as they are, all others
with the name of what was called.  A fault without wording cannot be quoted, and a name that cannot
be written cannot be given. -/
def wrapped (name : Except Fault String) (line : Line) (fault : Fault) : Fault :=
  if fault.passes then fault
  else
    match name, fault.wording with
    | .ok name, .ok text => .ofCause line (.hostCall name fault.className text)
    | .error unwritable, _ => unwritable
    | _, .error unworded => unworded

/-- What comes of going through a sequence to its end. -/
def readOut {α : Type} (result : Option (Except Fault α × Heap × ω)) (h : Heap) (w : ω) :
    Except Fault α × Heap × ω :=
  result.getD (.error .unreturned, h, w)

/-- Puts the items of a sequence at the end of a list, each when it has been read. -/
def extendFrom (binding : Binding ω) (room ref id : Nat) (h : Heap) (w : ω) : Reply ω :=
  let items := binding.fold room id (fun _ v h => (Value.null, h.modifyList ref (·.push v)))
  readOut (items 0 .null h w) h w

/-- Joins the items of a sequence by a text, after all of them have been read. -/
def joinFrom (binding : Binding ω) (room : Nat) (text : Value) (sep : String) (id : Nat) (h : Heap)
    (w : ω) : Reply ω :=
  match readOut (binding.fold room id (fun items v h => (items ++ [v], h)) 0 [] h w) h w with
  | (.error fault, h, w) => (.error fault, h, w)
  | (.ok items, h, w) =>
    match Member.joinItems text sep items h with
    | (result, h) => (result, h, w)

/-- Calls a member function of a plain value.  The two that go through what they are given read the
items of a sequence. -/
def callMember (binding : Binding ω) (room : Nat) (receiver : Value) (member : Member)
    (args : List Value) (h : Heap) (w : ω) : Reply ω :=
  match receiver, member, args with
  | .list ref, .extend, [.object id .sequence] => extendFrom binding room ref id h w
  | .str sep _, .join, [.object id .sequence] => joinFrom binding room receiver sep id h w
  | _, _, _ =>
    match member.call (binding.label w) room receiver args h with
    | (result, h) => (result, h, w)

/-- Calls a value that can be called, in a world. -/
def callIn (binding : Binding ω) (room : Nat) (callee : Value) (args : List Value)
    (expression : Quotation) (line : Line) (h : Heap) (w : ω) : Reply ω :=
  let (result, h, w) :=
    match callee with
    | .fn id => binding.call room id args h w
    | .method receiver member => callMember binding room receiver member args h w
    | v => (.error (Seat.notCallable v), h, w)
  (result.mapError fun fault => wrapped (expression ()) line fault, h, w)

/-- Calls a value that can be called. -/
def callValue (env : Setting ω τ) (room : Nat) (callee : Value) (args : List Value)
    (expression : Quotation) (line : Line) : Exec ω τ Value :=
  onWorld (callIn env.binding room callee args expression line)

/-- Calls what is registered under a name for a role, in a world. -/
def invokeIn (binding : Binding ω) (context : Value) (room : Nat) (role : Role) (name : String)
    (args : List Value) (line : Line) (h : Heap) (w : ω) : Reply ω :=
  let (result, h, w) := binding.invoke room role name args context h w
  (result.mapError (wrapped (.ok name) line), h, w)

/-- Calls what is registered under a name for a role.  What is to be called is looked up before;
whatever goes wrong then is no fault of the call. -/
def callNamed (env : Setting ω τ) (room : Nat) (role : Role) (name : String) (args : List Value)
    (line : Line) : Exec ω τ Value := do
  discard (consult env room (.lookup role name))
  onWorld (invokeIn env.binding env.context room role name args line)

/-- The cause of a name that is not registered for a role. -/
def unregistered (role : Role) (name : Name) : Cause :=
  match role with
  | .executor => .undefinedExecutor name
  | .condition => .undefinedCondition name
  | .placeholder => .undefinedPlaceholder name

end Exec

end TriggerEngine
