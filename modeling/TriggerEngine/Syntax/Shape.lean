/-
**Shapes.**

A shape is a tree without grammar: constants, operators and rows of shapes.  Programs can be given
and shown as shapes, and whatever is asked of a tree without running it is asked of its shape.

A row is a node if it starts with a name and ends with a line.  The nodes below a node are the
items of its row that are nodes themselves, and the nodes among the items of inner rows; so the
nodes of a program can be listed from the outside in, each before those below it.

Main definitions:

* `Constant`, `Shape` — the types;
* `Shape.isNode`, `Shape.children` — nodes and what lies directly below them;
* `Shape.walk` — all nodes of a program, in order;
* `Shape.inspect`, `Shape.toName` — a shape as text and as a name;
* `Reference`, `Shape.references` — what a program asks of its host by name;
* `Shape.agrees` — whether two shapes are the same up to the kind of their numbers.
-/

import TriggerEngine.Name
import TriggerEngine.Syntax.Operator
import TriggerEngine.Text.Quoted

set_option autoImplicit false

namespace TriggerEngine

/-! ### The types -/

/-- A constant in a tree. -/
inductive Constant where
  /-- Nothing. -/
  | null
  /-- A truth value. -/
  | bool (b : Bool)
  /-- A whole number. -/
  | int (n : Int)
  /-- A double. -/
  | float (x : Float)
  /-- A text. -/
  | str (s : String)
  deriving Inhabited

/-- A constant written for inspection. -/
def Constant.inspect : Constant → String
  | .null => "None"
  | .bool b => if b then "True" else "False"
  | .int n => Number.intText n
  | .float x => Number.floatText x
  | .str s => Text.quote s

/-- A constant as text; a text is itself. -/
def Constant.display : Constant → String
  | .str s => s
  | c => c.inspect

/-- The number that a constant counts for. -/
def Constant.number? : Constant → Option Number
  | .bool b => some (.int (if b then 1 else 0))
  | .int n => some (.int n)
  | .float x => some (.float x)
  | _ => none

/-- A tree without grammar. -/
inductive Shape where
  /-- A constant. -/
  | atom (c : Constant)
  /-- An operator. -/
  | operator (op : Operator)
  /-- A row of shapes. -/
  | row (items : List Shape)
  deriving Inhabited

namespace Shape

/-! ### Nodes -/

/-- The name that a shape is, if it is one. -/
def name? : Shape → Option String
  | .atom (.str s) => some s
  | .operator op => some op.name
  | _ => none

/-- The whole number that a shape is, if it is one. -/
def int? : Shape → Option Int
  | .atom (.int n) => some n
  | _ => none

/-- The items of a row; anything else has none. -/
def items : Shape → List Shape
  | .row items => items
  | _ => []

/-- The kind of a node: the name it starts with. -/
def kind (s : Shape) : String :=
  (s.items.head?.bind name?).getD ""

/-- The line of a node: the number it ends with. -/
def line (s : Shape) : Int :=
  (s.items.getLast?.bind int?).getD 0

/-- Whether a row of items makes a node: at least a name and a line. -/
def isNodeRow (items : List Shape) : Bool :=
  2 ≤ items.length && (items.head?.bind name?).isSome && (items.getLast?.bind int?).isSome

/-- Whether a shape is a node. -/
def isNode : Shape → Bool
  | .row items => isNodeRow items
  | _ => false

/-- The nodes that an item of a node's row contributes to its children. -/
def childrenIn (part : Shape) : List Shape :=
  if part.isNode then [part] else part.items.filter isNode

/-- The nodes directly below a node. -/
def children (s : Shape) : List Shape :=
  (s.items.drop 1).dropLast.flatMap childrenIn

/-! ### Listing nodes -/

/-- Where a shape stands, which decides what is looked at in a row that is no node. -/
inductive Standing where
  /-- In a program: every item is. -/
  | program
  /-- In the row of a node: items that are nodes are. -/
  | part
  /-- In an inner row: nothing is. -/
  | item
  deriving DecidableEq, Repr

/-- What an item of a row that is no node stands in. -/
def Standing.inner : Standing → Option Standing
  | .program => some .program
  | .part => some .item
  | .item => none

mutual

/-- The nodes of a shape, each before those below it. -/
def walkFrom (standing : Standing) : Shape → List Shape
  | .row items =>
    if isNodeRow items then .row items :: walkList .part items
    else
      match standing.inner with
      | some inner => walkList inner items
      | none => []
  | _ => []

/-- The nodes of a row of shapes. -/
def walkList (standing : Standing) : List Shape → List Shape
  | [] => []
  | s :: rest => walkFrom standing s ++ walkList standing rest

end

/-- All nodes of a program, or of a single node, each before those below it. -/
def walk (s : Shape) : List Shape :=
  walkFrom .program s

/-- The statements of a program, or a single node as the only one. -/
def statements (s : Shape) : List Shape :=
  if s.isNode then [s] else s.items

end Shape

/-! ### References -/

/-- The four ways in which a program names something of its host. -/
inductive ReferenceKind where
  | executor | condition | placeholder | global
  deriving DecidableEq, Repr

/-- The name of a kind of reference. -/
def ReferenceKind.name : ReferenceKind → String
  | .executor => "executor"
  | .condition => "condition"
  | .placeholder => "placeholder"
  | .global => "global"

/-- How a reference starts in a script. -/
def ReferenceKind.sigil : ReferenceKind → String
  | .executor => "#"
  | .condition => "@"
  | .placeholder => "$"
  | .global => "global."

/-- Something of the host that a program names. -/
structure Reference where
  /-- How it is named. -/
  kind : ReferenceKind
  /-- Its name. -/
  name : Name
  /-- The line of the node that names it. -/
  line : Int
  deriving DecidableEq, Repr

namespace Shape

/-! ### Shapes as text -/

/-- A row of texts between parentheses; a single one is followed by a comma. -/
def rowText : List String → String
  | [s] => "(" ++ s ++ ",)"
  | parts => "(" ++ ", ".intercalate parts ++ ")"

mutual

/-- A shape written for inspection. -/
def inspect : Shape → String
  | .atom c => c.inspect
  | .operator op => op.inspect
  | .row items => rowText (inspectList items)

/-- A row of shapes written for inspection. -/
def inspectList : List Shape → List String
  | [] => []
  | s :: rest => inspect s :: inspectList rest

end

/-! ### References of a program -/

/-- The name that a shape is. -/
def toName : Shape → Name
  | .atom .null => .null
  | .atom (.bool b) => .bool b
  | .atom (.int n) => .int n
  | .atom (.float x) => .float x.toBits
  | .atom (.str s) => .word s
  | .operator op => .word op.name
  | .row items => .row (row items).inspect

/-- The reference that a node makes, if it makes one.  A global is one only if its key is written
out. -/
def reference? (s : Shape) : Option Reference :=
  match s.kind, s.items.drop 1 with
  | "executor", name :: _ => some ⟨.executor, name.toName, s.line⟩
  | "condition", name :: _ => some ⟨.condition, name.toName, s.line⟩
  | "placeholder", name :: _ => some ⟨.placeholder, name.toName, s.line⟩
  | "global", key :: _ =>
    if key.kind == "string" then key.items[1]?.map fun name => ⟨.global, name.toName, s.line⟩
    else none
  | _, _ => none

/-- The references of a program, in the order of its nodes. -/
def references (s : Shape) : List Reference :=
  s.walk.filterMap reference?

/-! ### Obstacles -/

/-- What is in the way of writing a shape when only so many levels can be descended, in the order
in which it is written: a constant takes a level, a row takes one around its items, and an operator
takes three. -/
inductive Obstacle where
  /-- No level left to write a shape in. -/
  | writing
  /-- No level left to look an operator up in. -/
  | entering
  /-- No level left to write the name of an operator in. -/
  | calling
  deriving DecidableEq, Repr

mutual

/-- The first obstacle to writing a shape with some levels. -/
def obstacle? : Shape → Nat → Option Obstacle
  | _, 0 => some .writing
  | .atom _, _ + 1 => none
  | .operator _, 1 => some .entering
  | .operator _, 2 => some .calling
  | .operator _, _ + 3 => none
  | .row items, levels + 1 => obstacleList? items levels

/-- The first obstacle to writing a row of shapes with some levels. -/
def obstacleList? : List Shape → Nat → Option Obstacle
  | [], _ => none
  | s :: rest, levels => (obstacle? s levels).or (obstacleList? rest levels)

end

/-! ### Agreement -/

/-- Whether a shape other than a row agrees with another one: names are compared as texts, and
numbers and truth values by what they count for. -/
def leafAgrees (a b : Shape) : Bool :=
  match a.name?, b.name? with
  | some s, some t => s == t
  | none, none =>
    match a, b with
    | .atom .null, .atom .null => true
    | .atom c, .atom d =>
      match c.number?, d.number? with
      | some m, some n => m.eq n
      | _, _ => false
    | _, _ => false
  | _, _ => false

mutual

/-- Whether two shapes are the same up to the kind of their numbers. -/
def agrees : Shape → Shape → Bool
  | .row items, .row others => agreesList items others
  | a, b => leafAgrees a b

/-- Whether two rows of shapes are the same up to the kind of their numbers. -/
def agreesList : List Shape → List Shape → Bool
  | [], [] => true
  | a :: rest, b :: others => agrees a b && agreesList rest others
  | _, _ => false

end

end Shape

end TriggerEngine
