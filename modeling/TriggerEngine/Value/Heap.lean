/-
**The heap.**

Lists are shared: two variables may hold the same list, and a change made through one is seen
through the other.  So a list is a reference, and its items stand in the heap under it.  Mappings
never change, but they are shared too, and a mapping that is reached from itself has to be
recognised; they stand in the heap as well.  References are given out in order and never reused.

Main definitions:

* `Heap` — lists, mappings and the marks given out so far;
* `Heap.list`, `Heap.map` — what stands under a reference;
* `Heap.newList`, `Heap.newMap`, `Heap.newNumber`, `Heap.newText` — fresh values;
* `Heap.setList` — changing a list;
* `Heap.truthy` — which values count as true;
* `Heap.sameKey`, `Heap.mapGet?` — keys of mappings.
-/

import TriggerEngine.Value.Basic

set_option autoImplicit false

namespace TriggerEngine

/-- The shared state behind lists and mappings. -/
structure Heap where
  /-- The items of every list. -/
  lists : Array (Array Value) := #[]
  /-- The entries of every mapping, in order of insertion. -/
  maps : Array (Array (Value × Value)) := #[]
  /-- How many marks have been given to numbers and texts. -/
  marks : Nat := 0

namespace Heap

/-- The items of a list. -/
def list (h : Heap) (ref : Nat) : Array Value :=
  h.lists.getD ref #[]

/-- The entries of a mapping. -/
def map (h : Heap) (ref : Nat) : Array (Value × Value) :=
  h.maps.getD ref #[]

/-- A new list. -/
def newList (h : Heap) (items : Array Value) : Value × Heap :=
  (.list h.lists.size, { h with lists := h.lists.push items })

/-- A new mapping. -/
def newMap (h : Heap) (entries : Array (Value × Value)) : Value × Heap :=
  (.map h.maps.size, { h with maps := h.maps.push entries })

/-- A mark that has not been given before. -/
def newMark (h : Heap) : Mark × Heap :=
  (.made h.marks, { h with marks := h.marks + 1 })

/-- A number that was computed, as a value. -/
def newNumber (h : Heap) (n : Number) : Value × Heap :=
  match h.newMark with
  | (mark, h) => (.ofNumber n mark, h)

/-- A text that was cut out of another, as a value. -/
def newText (h : Heap) (s : String) : Value × Heap :=
  match h.newMark with
  | (mark, h) => (.ofText s mark, h)

/-- A text that was put together, as a value; however short it is, there may be others. -/
def builtText (h : Heap) (s : String) : Value × Heap :=
  if s.isEmpty then (.text s, h)
  else
    match h.newMark with
    | (mark, h) => (.str s mark, h)

/-- Texts that were cut out of another, as values. -/
def newTexts (h : Heap) : List String → List Value × Heap
  | [] => ([], h)
  | s :: rest =>
    match h.newText s with
    | (v, h) =>
      match h.newTexts rest with
      | (vs, h) => (v :: vs, h)

/-- Changes the items of a list. -/
def modifyList (h : Heap) (ref : Nat) (f : Array Value → Array Value) : Heap :=
  { h with lists := h.lists.modify ref f }

/-- Replaces the items of a list. -/
def setList (h : Heap) (ref : Nat) (items : Array Value) : Heap :=
  h.modifyList ref fun _ => items

/-- Which values count as true: all but nothing, false, zero, and empty texts, lists and
mappings. -/
def truthy (h : Heap) : Value → Bool
  | .null => false
  | .bool b => b
  | .int n _ => n != 0
  | .float x _ => x != 0
  | .str s _ => !s.isEmpty
  | .list ref => !(h.list ref).isEmpty
  | .map ref => !(h.map ref).isEmpty
  | _ => true

/-! ### Keys -/

/-- Whether two values are the same key: numbers and truth values by value, a value that is no
number by its mark, host objects and callables by identity, member functions by what they were read
from. -/
def sameKey : Value → Value → Bool
  | .null, .null => true
  | .str s _, .str t _ => s == t
  | .object a _, .object b _ => a == b
  | .fn a, .fn b => a == b
  | .list a, .list b => a == b
  | .map a, .map b => a == b
  | .method r m, .method r' m' => m == m' && r.same r'
  | .float x m, .float y m' =>
    if x.isNaN && y.isNaN then m == m' else Number.eq (.float x) (.float y)
  | a, b =>
    match a.numeric?, b.numeric? with
    | some x, some y => Number.eq x y
    | _, _ => false

/-- The value under a key in a row of entries. -/
def entryGet? (entries : Array (Value × Value)) (key : Value) : Option Value :=
  (entries.find? fun entry => sameKey entry.1 key).map Prod.snd

/-- The value under a key of a mapping. -/
def mapGet? (h : Heap) (ref : Nat) (key : Value) : Option Value :=
  entryGet? (h.map ref) key

/-- Puts an entry: the value of a key that is there is replaced in its place, and a new key comes
last. -/
def entryPut (entries : Array (Value × Value)) (key value : Value) : Array (Value × Value) :=
  match entries.findIdx? fun entry => sameKey entry.1 key with
  | some i => entries.modify i fun entry => (entry.1, value)
  | none => entries.push (key, value)

/-! ### Small facts -/

@[simp] theorem map_newList (h : Heap) (items : Array Value) (ref : Nat) :
    (h.newList items).2.map ref = h.map ref := rfl

end Heap

end TriggerEngine
