/-
**Calls of member functions.**

A member function works on its receiver and its arguments.  An argument may be an object of the
host, or hold one; of such an object a member function sees the label, where the object is written.
What a host's sequence holds is not seen here: whoever calls a member function with one reads it
out.

Main definitions:

* `Member.itemsOf?` — the items of a value that can be gone through;
* `Member.call` — calls.
-/

import TriggerEngine.Value.ListMember

set_option autoImplicit false

namespace TriggerEngine

namespace Member

/-- The items of a value that can be gone through, and the heap with them. -/
def itemsOf? (h : Heap) : Value → Option (List Value × Heap)
  | .list ref => some ((h.list ref).toList, h)
  | .str s _ => some (h.newTexts (s.toList.map String.singleton))
  | .map ref => some ((h.map ref).toList.map Prod.fst, h)
  | _ => none

/-- Joins items by a text. -/
def joinItems (text : Value) (sep : String) (items : List Value) (h : Heap) :
    Except Fault Value × Heap :=
  match TextMember.join sep.toList items with
  | .error refusal => (.error refusal.fault, h)
  | .ok answer =>
    match answer.give text h with
    | (v, h) => (.ok v, h)

/-- Joins the items of a value. -/
def joinAll (text : Value) (sep : String) (args : List Value) (h : Heap) :
    Except Fault Value × Heap :=
  match args with
  | [v] =>
    match itemsOf? h v with
    | none => (Refusal.raise (Arguments.refuse "can only join an iterable"), h)
    | some (items, h) => joinItems text sep items h
  | _ => (Refusal.raise (Arguments.oneWanted "str.join" args.length), h)

/-- Puts the items of a value at the end of a list. -/
def extendBy (ref : Nat) (args : List Value) (h : Heap) : Except Fault Value × Heap :=
  match args with
  | [v] =>
    match itemsOf? h v with
    | none => (Refusal.raise (Arguments.refuse ("'" ++ v.className ++ "' object is not iterable")), h)
    | some (items, h) => (.ok .null, h.modifyList ref (· ++ items.toArray))
  | _ => (Refusal.raise (Arguments.oneWanted "list.extend" args.length), h)

/-- How many binary digits a whole number has. -/
def binaryDigits (n : Int) : Nat :=
  if n == 0 then 0 else n.natAbs.log2 + 1

/-- Whether a double is a whole number. -/
def isWholeDouble (x : Float) : Bool :=
  match Number.decode x with
  | .finite parts => Number.isWhole parts
  | _ => false

/-- Calls a member function of a list.  A list counts as empty while it is sorted. -/
def callListMember (labels : Heap.Labels) (room : Nat) (ref : Nat) (member : Member)
    (args : List Value) (h : Heap) : Except Fault Value × Heap :=
  let items := h.list ref
  let seen := if member == .sort then h.setList ref #[] else h
  match ListMember.apply seen labels room items member args with
  | (result, items) => (Refusal.raise result, h.setList ref items)

/-- Calls a member function of a plain value. -/
def call (labels : Heap.Labels) (room : Nat) (receiver : Value) (member : Member)
    (args : List Value) (h : Heap) : Except Fault Value × Heap :=
  match receiver, member with
  | .str s _, .split =>
    match TextMember.split s.toList args with
    | .error refusal => (.error refusal.fault, h)
    | .ok pieces =>
      match TextMember.Answer.giveAll receiver h pieces with
      | (items, h) =>
        match h.newList items.toArray with
        | (list, h) => (.ok list, h)
  | .str s _, .join => joinAll receiver s args h
  | .str s _, member =>
    match TextMember.apply s.toList member args with
    | .error refusal => (.error refusal.fault, h)
    | .ok answer =>
      match answer.give receiver h with
      | (v, h) => (.ok v, h)
  | .list ref, .copy =>
    match ListMember.withoutArguments "list.copy" args () with
    | .error refusal => (.error refusal.fault, h)
    | .ok _ =>
      match h.newList (h.list ref) with
      | (list, h) => (.ok list, h)
  | .list ref, .append =>
    match ListMember.append h ref args with
    | (result, h) => (Refusal.raise result, h)
  | .list ref, .extend => extendBy ref args h
  | .list ref, member => callListMember labels room ref member args h
  | .float x _, _ =>
    (Refusal.raise (ListMember.withoutArguments "float.is_integer" args
      (.bool (isWholeDouble x))), h)
  | v, _ =>
    (Refusal.raise (ListMember.withoutArguments (v.className ++ ".bit_length") args
      (.whole (binaryDigits (v.index?.getD 0)))), h)

end Member

end TriggerEngine
