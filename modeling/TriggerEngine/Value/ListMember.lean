/-
**Member functions of lists.**

A list is shared, and most of its member functions change it in place.  Searching compares by
contents, the same item first; a sort whose comparison fails leaves the items as far sorted as they
were.

Main definitions:

* `ListMember.order` — the order by which lists are sorted;
* `ListMember.apply` — the call of a member function of a list, with the items afterwards.
-/

import TriggerEngine.Sorting
import TriggerEngine.Value.Equality
import TriggerEngine.Value.TextMember
import TriggerEngine.Value.Written

set_option autoImplicit false

namespace TriggerEngine.ListMember

open Arguments

/-- What the host says when contents lie too deep. -/
def deep : Refusal := ⟨.recursion, "maximum recursion depth exceeded in comparison"⟩

/-- The fault of contents that lie too deep. -/
def tooDeep : Fault := deep.fault

/-! ### Order -/

/-- The order of values in a heap, as a comparison that may fail. -/
def order (h : Heap) (levels : Nat) : Sorting.Compare Value Refusal := fun a b =>
  match h.before levels a b with
  | .answer verdict => .ok verdict
  | .unordered left right =>
    refuse ("'<' not supported between instances of '" ++ left ++ "' and '" ++ right ++ "'")
  | .tooDeep => .error deep

/-! ### Searching -/

/-- Whether an item is, or equals, a value. -/
def matching (h : Heap) (levels : Nat) (item v : Value) : Except Refusal Bool :=
  if item.same v then .ok true
  else
    match h.equal? levels item v with
    | some verdict => .ok verdict
    | none => .error deep

/-- The first place, from `i` on, of an item that equals a value. -/
def findFrom (h : Heap) (levels : Nat) (v : Value) (i : Nat) : List Value → Except Refusal (Option Nat)
  | [] => .ok none
  | item :: rest => do
    if ← matching h levels item v then return some i
    findFrom h levels v (i + 1) rest

/-- How many items equal a value. -/
def countOf (h : Heap) (levels : Nat) (v : Value) : List Value → Except Refusal Nat
  | [] => .ok 0
  | item :: rest => do
    let hit ← matching h levels item v
    return (← countOf h levels v rest) + (if hit then 1 else 0)

/-- An end of a stretch of a list. -/
def stretchEnd (v : Value) : Except Refusal (Option Int) :=
  match v.index? with
  | some n => .ok (some n)
  | none => refuse "slice indices must be integers or have an __index__ method"

/-- A stretch of a list from arguments, as many as there are. -/
def stretch (length : Nat) : List Value → Except Refusal Text.Window
  | [] => .ok (.make length none none)
  | [start] => do return .make length (← stretchEnd start) none
  | start :: stop :: _ => do return .make length (← stretchEnd start) (← stretchEnd stop)

/-- The place of an item that equals a value. -/
def index (h : Heap) (labels : Heap.Labels) (levels : Nat) (items : Array Value)
    (args : List Value) : Except Refusal Value :=
  match args with
  | [] => countExpected "index" 1 3 0
  | v :: ends =>
    if 2 < ends.length then countExpected "index" 1 3 args.length
    else do
      let w ← stretch items.size ends
      match ← findFrom h levels v w.start ((items.toList.take w.stop).drop w.start) with
      | some i => return .whole i
      | none =>
        match h.inspect labels levels [] [] v with
        | .ok s => .error ⟨.value, s ++ " is not in list"⟩
        | .error reason => .error reason.refusal

/-! ### The calls -/

/-- Takes an item out of a list. -/
def pop (items : Array Value) (args : List Value) : Except Refusal (Value × Array Value) :=
  match args with
  | _ :: _ :: _ => countExpected "pop" 0 1 args.length
  | _ => do
    let i ← count (args.headD (.whole (-1)))
    let i := if i < 0 then i + items.size else i
    if items.isEmpty then .error ⟨.index, "pop from empty list"⟩
    else if i < 0 || items.size ≤ i then .error ⟨.index, "pop index out of range"⟩
    else
      let i := i.toNat
      return (items.getD i .null, items.extract 0 i ++ items.extract (i + 1) items.size)

/-- Puts an item into a list; a place outside is the nearest end. -/
def insert (items : Array Value) (args : List Value) : Except Refusal (Array Value) :=
  match args with
  | [at?, v] => do
    let i ← count at?
    let i := if i < 0 then i + items.size else i
    return Sorting.insertAt items (min i.toNat items.size) v
  | _ => countExpected "insert" 2 2 args.length

/-- Removes the first item that equals a value. -/
def remove (h : Heap) (levels : Nat) (items : Array Value) (args : List Value) :
    Except Refusal (Array Value) :=
  match args with
  | [v] => do
    match ← findFrom h levels v 0 items.toList with
    | some i => return items.extract 0 i ++ items.extract (i + 1) items.size
    | none => .error ⟨.value, "list.remove(x): x not in list"⟩
  | _ => oneWanted "list.remove" args.length

/-- Requires that there are no arguments. -/
def withoutArguments {α : Type} (function : String) (args : List Value) (a : α) : Except Refusal α :=
  if args.isEmpty then .ok a else noneWanted function args.length

/-- Puts an item at the end of a list. -/
def append (h : Heap) (ref : Nat) (args : List Value) : Except Refusal Value × Heap :=
  match args with
  | [v] => (.ok .null, h.modifyList ref (·.push v))
  | _ => (oneWanted "list.append" args.length, h)

/-- The call of a member function of a list other than `append` that answers without making a list
and without going through another sequence: the answer and the items afterwards. -/
def apply (h : Heap) (labels : Heap.Labels) (levels : Nat) (items : Array Value)
    (member : Member) (args : List Value) : Except Refusal Value × Array Value :=
  let changed (result : Except Refusal (Array Value)) : Except Refusal Value × Array Value :=
    match result with
    | .ok items => (.ok .null, items)
    | .error refusal => (.error refusal, items)
  match member with
  | .pop =>
    match pop items args with
    | .ok (v, items) => (.ok v, items)
    | .error refusal => (.error refusal, items)
  | .insert => changed (insert items args)
  | .reverse => changed (withoutArguments "list.reverse" args items.reverse)
  | .clear => changed (withoutArguments "list.clear" args #[])
  | .remove => changed (remove h levels items args)
  | .index => (index h labels levels items args, items)
  | .countItem =>
    match args with
    | [v] => ((countOf h levels v items.toList).map fun n => .whole n, items)
    | _ => (oneWanted "list.count" args.length, items)
  | .sort =>
    if args.isEmpty then
      match Sorting.sort (order h levels) items with
      | (items, none) => (.ok .null, items)
      | (items, some refusal) => (.error refusal, items)
    else if args.length ≤ 2 then (refuse "sort() takes no positional arguments", items)
    else
      (refuse ("sort() takes at most 2 arguments (" ++ toString args.length ++ " given)"), items)
  | _ => (refuse "", items)

end TriggerEngine.ListMember
