/-
**Values as text.**

There are two notations.  Scripts write `null`, `true` and `false`, and a text inside a list
without quotes; the host writes `None`, `True` and `False`, and quotes a text wherever it is inside
something else.  A mapping is always written in the host's notation.  The host's notation marks a
list or mapping that is reached again while it is being written, so it never runs on; the script
notation descends into such a list until the levels it may descend are used up.

Main definitions:

* `Heap.Unwritable` — why a value has no text;
* `Heap.inspect` — the host's notation;
* `Heap.display` — the host's notation, a text on its own without quotes;
* `Heap.text` — the script notation.
-/

import TriggerEngine.Fault
import TriggerEngine.Text.Quoted
import TriggerEngine.Value.Heap

set_option autoImplicit false

namespace TriggerEngine.Heap

/-- Why a value has no text. -/
inductive Unwritable where
  /-- The levels that may be descended do not suffice. -/
  | tooDeep
  /-- A whole number has too many digits. -/
  | tooLong
  deriving DecidableEq, Repr

/-- What the host says about a value that it cannot write. -/
def Unwritable.refusal : Unwritable → Refusal
  | .tooDeep => ⟨.recursion, "maximum recursion depth exceeded while getting the repr of an object"⟩
  | .tooLong => .tooManyDigits

/-- The fault of a value that cannot be written. -/
def Unwritable.fault (reason : Unwritable) : Fault := reason.refusal.fault

/-- How objects of the host are labelled. -/
abbrev Labels := Nat → String

/-- Texts of a row of values, the first failure first. -/
def textRow (write : Value → Except Unwritable String) : List Value → Except Unwritable (List String)
  | [] => .ok []
  | v :: vs =>
    match write v with
    | .error e => .error e
    | .ok s =>
      match textRow write vs with
      | .error e => .error e
      | .ok ss => .ok (s :: ss)

/-- Texts of a row of entries, key and value. -/
def textEntries (write : Value → Except Unwritable String) :
    List (Value × Value) → Except Unwritable (List String)
  | [] => .ok []
  | (k, v) :: rest =>
    match textRow write [k, v] with
    | .error e => .error e
    | .ok parts =>
      match textEntries write rest with
      | .error e => .error e
      | .ok ss => .ok (": ".intercalate parts :: ss)

/-- A whole number as text. -/
def intText (n : Int) : Except Unwritable String :=
  match Number.intText? n with
  | some s => .ok s
  | none => .error .tooLong

/-- The host's notation of a value; `lists` and `maps` are those that are being written. -/
def inspect (h : Heap) (labels : Labels) :
    Nat → List Nat → List Nat → Value → Except Unwritable String
  | 0, _, _, _ => .error .tooDeep
  | levels + 1, lists, maps, v =>
    match v with
    | .null => .ok "None"
    | .bool b => .ok (if b then "True" else "False")
    | .int n _ => intText n
    | .float x _ => .ok (Number.floatText x)
    | .str s _ => .ok (Text.quote s)
    | .list ref =>
      if lists.contains ref then .ok "[...]"
      else
        match textRow (inspect h labels levels (ref :: lists) maps) (h.list ref).toList with
        | .error e => .error e
        | .ok parts => .ok ("[" ++ ", ".intercalate parts ++ "]")
    | .map ref =>
      if maps.contains ref then .ok "\x7b...\x7d"
      else
        match textEntries (inspect h labels levels lists (ref :: maps)) (h.map ref).toList with
        | .error e => .error e
        | .ok parts => .ok ("\x7b" ++ ", ".intercalate parts ++ "\x7d")
    | .object id _ => .ok ("<host " ++ labels id ++ ">")
    | .fn _ => .ok "<fn>"
    | .method receiver member =>
      .ok ("<built-in method " ++ member.name ++ " of " ++ receiver.className ++ " object>")

/-- The host's notation of a value on its own: a text is itself. -/
def display (h : Heap) (labels : Labels) (levels : Nat) : Value → Except Unwritable String
  | .str s _ => .ok s
  | v => h.inspect labels levels [] [] v

/-- The script notation of a value.  A list takes two levels. -/
def text (h : Heap) (labels : Labels) : Nat → Value → Except Unwritable String
  | levels + 2, .list ref =>
    match textRow (text h labels levels) (h.list ref).toList with
    | .error e => .error e
    | .ok parts => .ok ("[" ++ ", ".intercalate parts ++ "]")
  | _, .list _ => .error .tooDeep
  | _, .null => .ok "null"
  | _, .bool b => .ok (if b then "true" else "false")
  | levels, v => h.display labels (levels + 1) v

end TriggerEngine.Heap
