/-
**Names and lines.**

A script calls a variable by a word.  A tree that was not read from a script may call it by anything
that can stand in a tree: by another constant, or by a row, which is then known by its writing.  In
the same way a node of a script stands in a line, and a node from elsewhere may have anything in the
place of its line.

Main definitions:

* `Name` — the names of variables;
* `Name.display` — a name as text;
* `Name.value?` — the value that a name is;
* `Name.before` — the order of names;
* `Name.agrees` — whether two names are names of the same variable;
* `Line` — where a node stands.
-/

import TriggerEngine.Value.Basic

set_option autoImplicit false

namespace TriggerEngine

/-- What a variable is called. -/
inductive Name where
  /-- A word, as in every script. -/
  | word (s : String)
  /-- Nothing. -/
  | null
  /-- A truth value. -/
  | bool (b : Bool)
  /-- A whole number. -/
  | int (n : Int)
  /-- A double, by its bits. -/
  | float (bits : UInt64)
  /-- A row, by its writing. -/
  | row (writing : String)
  deriving DecidableEq, Repr, Inhabited

instance : Coe String Name := ⟨Name.word⟩

namespace Name

/-- A name as text. -/
def display : Name → String
  | .word s => s
  | .null => "None"
  | .bool b => if b then "True" else "False"
  | .int n => Number.intText n
  | .float bits => Number.floatText (Float.ofBits bits)
  | .row writing => writing

/-- The word that a name is, if it is one. -/
def word? : Name → Option String
  | .word s => some s
  | _ => none

/-- The value that a name is; a row is none. -/
def value? : Name → Option Value
  | .word s => some (.text s)
  | .null => some .null
  | .bool b => some (.bool b)
  | .int n => some (.whole n)
  | .float bits => some (.float (Float.ofBits bits) .shared)
  | .row _ => none

/-- The class of a name, as the host names it. -/
def className (name : Name) : String :=
  (name.value?.map Value.className).getD "tuple"

/-- Whether a name comes before another: words by their characters, numbers and truth values by
value.  Names of two classes that have no order are given back as such. -/
def before (a b : Name) : Except (String × String) Bool :=
  match a, b with
  | .word s, .word t => .ok (decide (s < t))
  | .row s, .row t => .ok (decide (s < t))
  | a, b =>
    match a.value?.bind Value.numeric?, b.value?.bind Value.numeric? with
    | some x, some y => .ok (x.lt y)
    | _, _ => .error (a.className, b.className)

/-- Whether two names are names of the same variable: numbers and truth values are compared by
value. -/
def agrees (a b : Name) : Bool :=
  a == b ||
  match a.value?.bind Value.numeric?, b.value?.bind Value.numeric? with
  | some x, some y => x.eq y
  | _, _ => false

end Name

/-- Where a node stands. -/
inductive Line where
  /-- In a line. -/
  | number (n : Int)
  /-- Somewhere that is no line. -/
  | other (name : Name)
  deriving DecidableEq, Repr, Inhabited

/-- A line as text. -/
def Line.text : Line → String
  | .number n => Number.intText n
  | .other name => name.display

/-- The number of a line; what is no line counts as zero. -/
def Line.toInt : Line → Int
  | .number n => n
  | .other _ => 0

instance : Coe Int Line := ⟨Line.number⟩

instance : Coe Nat Line := ⟨fun n => .number n⟩

end TriggerEngine
