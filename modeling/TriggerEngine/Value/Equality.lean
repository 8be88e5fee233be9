/-
**Equality of values.**

Scripts compare lists and mappings by their contents.  The comparison goes down through shared
references, so it may be endless; it is therefore given a number of levels that it may descend,
and says so when they do not suffice.  Between a truth value and anything else the script rule
says no at once.  Inside lists and mappings that rule is not asked again: there truth values count
as one and zero, and a value equals itself without being looked into.

Main definitions:

* `Heap.equal?` — equality of contents, to a given depth;
* `Heap.valuesEqual?` — the equality that scripts see.
-/

import TriggerEngine.Value.Heap

set_option autoImplicit false

namespace TriggerEngine.Heap

/-- Equality of values that have no contents. -/
def equalPlain (a b : Value) : Bool :=
  match a, b with
  | .float x _, .float y _ => Number.eq (.float x) (.float y)
  | a, b => sameKey a b

/-- Whether two rows of values agree under `eq`, from left to right; `none` if a comparison that
is needed is. -/
def equalRows (eq : Value → Value → Option Bool) : List Value → List Value → Option Bool
  | [], [] => some true
  | a :: as, b :: bs =>
    if a.same b then equalRows eq as bs
    else
      match eq a b with
      | some true => equalRows eq as bs
      | other => other
  | _, _ => some false

/-- Whether every entry of the first row has a partner in the second. -/
def equalEntries (eq : Value → Value → Option Bool) (other : Array (Value × Value)) :
    List (Value × Value) → Option Bool
  | [] => some true
  | (key, a) :: rest =>
    match entryGet? other key with
    | none => some false
    | some b =>
      if a.same b then equalEntries eq other rest
      else
        match eq a b with
        | some true => equalEntries eq other rest
        | verdict => verdict

/-- Equality of contents, descending at most `levels` levels; `none` if they do not suffice. -/
def equal? (h : Heap) : Nat → Value → Value → Option Bool
  | 0, _, _ => none
  | levels + 1, a, b =>
    match a, b with
    | .list r, .list s =>
      if (h.list r).size == (h.list s).size then
        equalRows (equal? h levels) (h.list r).toList (h.list s).toList
      else some false
    | .map r, .map s =>
      if (h.map r).size == (h.map s).size then
        equalEntries (equal? h levels) (h.map s) (h.map r).toList
      else some false
    | a, b => some (equalPlain a b)

/-- The equality that scripts see: a truth value equals truth values only. -/
def valuesEqual? (h : Heap) (levels : Nat) (a b : Value) : Option Bool :=
  if a.isBool != b.isBool then some false else h.equal? levels a b

/-! ### Order, as sorting asks for it -/

/-- The verdict of a comparison. -/
inductive Before where
  /-- The first value comes before the second, or not. -/
  | answer (b : Bool)
  /-- Values of these two classes have no order. -/
  | unordered (left right : String)
  /-- The levels do not suffice. -/
  | tooDeep

/-- The order of two rows: that of the first items that are not equal, or else of the lengths. -/
def beforeRows (eq : Value → Value → Option Bool) (lt : Value → Value → Before) :
    List Value → List Value → Before
  | [], [] => .answer false
  | [], _ :: _ => .answer true
  | _ :: _, [] => .answer false
  | a :: as, b :: bs =>
    if a.same b then beforeRows eq lt as bs
    else
      match eq a b with
      | some true => beforeRows eq lt as bs
      | some false => lt a b
      | none => .tooDeep

/-- Whether a value comes before another: numbers and truth values by value, texts by their
characters, lists item by item. -/
def before (h : Heap) : Nat → Value → Value → Before
  | 0, _, _ => .tooDeep
  | levels + 1, a, b =>
    match a, b with
    | .str s _, .str t _ => .answer (s < t)
    | .list r, .list s =>
      beforeRows (h.equal? levels) (before h levels) (h.list r).toList (h.list s).toList
    | a, b =>
      match a.numeric?, b.numeric? with
      | some x, some y => .answer (x.lt y)
      | _, _ => .unordered a.className b.className

end TriggerEngine.Heap
