/-
**Values.**

What a script computes with: nothing, truth values, numbers and texts, which are what they are;
lists and mappings, which are shared and therefore references into a heap; objects and callables
of the host, known by their number; and member functions of plain values that were read but not
called yet.

Numbers and texts carry a mark that tells where they come from.  Marks play no part in what a number
or text is worth; they decide whether two values are one and the same.  That is asked of doubles
that are no numbers, which equal nothing by value, and of member functions, which are equal only if
they were read from the same value.

Main definitions:

* `Mark` — where a value comes from;
* `Value`, `Member` — the type and the member functions of plain values;
* `Value.same` — whether two values are one and the same;
* `Value.ofNumber`, `Value.ofText` — numbers and texts with a mark, unless they are shared;
* `Value.number?`, `Value.numeric?` — the number a value is, without and with truth values;
* `Value.typeName`, `Value.className` — what scripts and the host call the kind of a value.
-/

import TriggerEngine.Number.Basic

set_option autoImplicit false

namespace TriggerEngine

/-- Member functions of texts, lists and numbers. -/
inductive Member where
  | upper | lower | strip | split | startswith | endswith | replace | find | countText | join
  | isdigit
  | append | pop | insert | reverse | sort | index | countItem | copy | extend | remove | clear
  | bitLength
  | isInteger
  deriving DecidableEq, Repr

/-- The name under which a script reads a member function. -/
def Member.name : Member → String
  | .upper => "upper"
  | .lower => "lower"
  | .strip => "strip"
  | .split => "split"
  | .startswith => "startswith"
  | .endswith => "endswith"
  | .replace => "replace"
  | .find => "find"
  | .countText => "count"
  | .join => "join"
  | .isdigit => "isdigit"
  | .append => "append"
  | .pop => "pop"
  | .insert => "insert"
  | .reverse => "reverse"
  | .sort => "sort"
  | .index => "index"
  | .countItem => "count"
  | .copy => "copy"
  | .extend => "extend"
  | .remove => "remove"
  | .clear => "clear"
  | .bitLength => "bit_length"
  | .isInteger => "is_integer"

/-- The member functions of texts. -/
def Member.ofText : List Member :=
  [.upper, .lower, .strip, .split, .startswith, .endswith, .replace, .find, .countText, .join,
    .isdigit]

/-- The member functions of lists. -/
def Member.ofList : List Member :=
  [.append, .pop, .insert, .reverse, .sort, .index, .countItem, .copy, .extend, .remove, .clear]

/-- Finds a member function by name. -/
def Member.find? (members : List Member) (name : String) : Option Member :=
  List.find? (fun m => m.name == name) members

/-- Whether an object of the host can be looped over. -/
inductive ObjectKind where
  /-- An object with attributes only. -/
  | plain
  /-- An object that is also a sequence. -/
  | sequence
  deriving DecidableEq, Repr

/-- Where a number or text comes from. -/
inductive Mark where
  /-- From nowhere in particular: there is only one such value. -/
  | shared
  /-- From a literal, by its line and what tells it from others on that line. -/
  | literal (line : Int) (tag : Nat)
  /-- From a computation, by a number of its own. -/
  | made (n : Nat)
  /-- From the clock, after it was changed so many times. -/
  | clock (changes : Nat)
  deriving DecidableEq, Repr, Inhabited

/-- A script value. -/
inductive Value where
  /-- Nothing. -/
  | null
  /-- A truth value. -/
  | bool (b : Bool)
  /-- A whole number. -/
  | int (n : Int) (mark : Mark)
  /-- A double. -/
  | float (x : Float) (mark : Mark)
  /-- A text. -/
  | str (s : String) (mark : Mark)
  /-- A list of the heap. -/
  | list (ref : Nat)
  /-- A mapping of the heap. -/
  | map (ref : Nat)
  /-- An object of the host. -/
  | object (id : Nat) (kind : ObjectKind)
  /-- A callable of the host. -/
  | fn (id : Nat)
  /-- A member function of a plain value. -/
  | method (receiver : Value) (member : Member)
  deriving Inhabited

namespace Value

/-! ### Numbers and texts -/

/-- A whole number that there is only one of. -/
def whole (n : Int) : Value := .int n .shared

/-- A text that there is only one of. -/
def text (s : String) : Value := .str s .shared

/-- Whether there is only one of a whole number, wherever it comes from. -/
def isSmall (n : Int) : Bool := -5 ≤ n && n ≤ 256

/-- Whether there is only one of a text, wherever it is cut from: an empty one, or a single
character of the first 256. -/
def isShort (s : String) : Bool :=
  match s.toList with
  | [] => true
  | [c] => c.toNat < 256
  | _ => false

/-- The value of a number with a mark. -/
def ofNumber (n : Number) (mark : Mark) : Value :=
  match n with
  | .int i => if isSmall i then whole i else .int i mark
  | .float x => .float x mark

/-- The value of a text with a mark. -/
def ofText (s : String) (mark : Mark) : Value :=
  if isShort s then text s else .str s mark

/-- Where a value comes from; of lists, mappings and what belongs to the host that is not asked. -/
def mark : Value → Mark
  | .int _ m => m
  | .float _ m => m
  | .str _ m => m
  | _ => .shared

/-- Whether two values are one and the same.  A member function is read anew each time. -/
def same : Value → Value → Bool
  | .null, .null => true
  | .bool a, .bool b => a == b
  | .int a m, .int b m' => m == m' && a == b
  | .float x m, .float y m' => m == m' && x.toBits == y.toBits
  | .str s m, .str t m' => m == m' && s == t
  | .list a, .list b => a == b
  | .map a, .map b => a == b
  | .object a _, .object b _ => a == b
  | .fn a, .fn b => a == b
  | _, _ => false

/-- The number a value is; truth values are no numbers. -/
def number? : Value → Option Number
  | .int n _ => some (.int n)
  | .float x _ => some (.float x)
  | _ => none

/-- The number a value counts as where truth values count as one and zero. -/
def numeric? : Value → Option Number
  | .bool b => some (.int (if b then 1 else 0))
  | v => v.number?

/-- The whole number a value is; truth values are none. -/
def int? : Value → Option Int
  | .int n _ => some n
  | _ => none

/-- The whole number a value counts as where truth values count as one and zero. -/
def index? : Value → Option Int
  | .int n _ => some n
  | .bool b => some (if b then 1 else 0)
  | _ => none

/-- Whether a value is a truth value. -/
def isBool : Value → Bool
  | .bool _ => true
  | _ => false

/-- Whether a value is a number; truth values are none. -/
def isNumber (v : Value) : Bool :=
  v.number?.isSome

/-- Whether a value is nothing. -/
def isNull : Value → Bool
  | .null => true
  | _ => false

/-- Whether a value can be called. -/
def isCallable : Value → Bool
  | .fn _ => true
  | .method _ _ => true
  | _ => false

/-- The class of a value as the host names it. -/
def className : Value → String
  | .null => "NoneType"
  | .bool _ => "bool"
  | .int _ _ => "int"
  | .float _ _ => "float"
  | .str _ _ => "str"
  | .list _ => "list"
  | .map _ => "dict"
  | .object _ .plain => "Host"
  | .object _ .sequence => "HostSeq"
  | .fn _ => "HostFn"
  | .method _ _ => "builtin_function_or_method"

/-- The kind of a value as scripts name it. -/
def typeName : Value → String
  | .null => "null"
  | .bool _ => "boolean"
  | .int _ _ => "number"
  | .float _ _ => "number"
  | .str _ _ => "string"
  | .list _ => "list"
  | v => v.className

/-- Whether a value can be a key of a mapping. -/
def isHashable : Value → Bool
  | .list _ => false
  | .map _ => false
  | _ => true

end Value

end TriggerEngine
