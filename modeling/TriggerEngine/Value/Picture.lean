/-
**Pictures of values.**

The log of host calls shows the arguments as they were at the call, not as they are when the log
is read.  A picture is a value with everything that hangs on it, copied out of the heap into a
finite tree: a list or mapping that contains itself is marked where it comes round again, and what
lies more than forty containers deep is cut off.

Main definitions:

* `Picture` — the tree;
* `Heap.picture` — the picture of a value.
-/

import TriggerEngine.Value.Heap

set_option autoImplicit false

namespace TriggerEngine

/-- A value with its contents, as a finite tree. -/
inductive Picture where
  /-- Nothing. -/
  | null
  /-- A truth value. -/
  | bool (b : Bool)
  /-- A whole number. -/
  | int (n : Int)
  /-- A double. -/
  | float (x : Float)
  /-- A text. -/
  | str (s : String)
  /-- A list. -/
  | list (items : List Picture)
  /-- A mapping, in order of insertion. -/
  | map (entries : List (Picture × Picture))
  /-- An object of the host, by its label. -/
  | object (label : String)
  /-- A callable of the host. -/
  | fn
  /-- A member function. -/
  | method
  /-- A list or mapping that the tree is inside of. -/
  | cycle
  /-- A list or mapping that lies too deep. -/
  | deep

namespace Heap

/-- How many lists and mappings may be open at once in a picture. -/
def pictureDepth : Nat := 40

/-- The picture of a value inside open lists and mappings. -/
def pictureIn (h : Heap) (labels : Nat → String) :
    Nat → List Nat → List Nat → Value → Picture
  | _, _, _, .null => .null
  | _, _, _, .bool b => .bool b
  | _, _, _, .int n _ => .int n
  | _, _, _, .float x _ => .float x
  | _, _, _, .str s _ => .str s
  | _, _, _, .object id _ => .object (labels id)
  | _, _, _, .fn _ => .fn
  | _, _, _, .method _ _ => .method
  | levels, lists, maps, .list ref =>
    if lists.contains ref then .cycle
    else
      match levels with
      | 0 => .deep
      | levels + 1 =>
        .list ((h.list ref).toList.map (pictureIn h labels levels (ref :: lists) maps))
  | levels, lists, maps, .map ref =>
    if maps.contains ref then .cycle
    else
      match levels with
      | 0 => .deep
      | levels + 1 =>
        .map ((h.map ref).toList.map fun entry =>
          (pictureIn h labels levels lists (ref :: maps) entry.1,
            pictureIn h labels levels lists (ref :: maps) entry.2))

/-- The picture of a value. -/
def picture (h : Heap) (labels : Nat → String) (v : Value) : Picture :=
  h.pictureIn labels pictureDepth [] [] v

end Heap

end TriggerEngine
