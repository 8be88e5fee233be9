/-
**Shapes that fit no form.**

A tree from outside may hold anything where a node should stand.  A run that comes to such a place
looks at what is there as it looks at every node: at the first item for the kind, at the last for
the line, at the others one by one; and it fails where something is missing or cannot be taken
apart.

Main definitions:

* `Shape.head?`, `Shape.last?`, `Shape.second?` — the places that are looked at;
* `Shape.expressionFault`, `Shape.statementFault` — how a run fails at a shape;
* `Shape.analysisFault?` — how an analysis fails at a shape;
* `Shape.formatMisfit` — such a shape as text;
* `Node.heading` — what a watcher sees of a node.
-/

import TriggerEngine.Fault
import TriggerEngine.Syntax.Node

set_option autoImplicit false

namespace TriggerEngine.Shape

/-! ### Taking shapes apart -/

/-- The class of a shape, as the host names it. -/
def className : Shape → String
  | .atom .null => "NoneType"
  | .atom (.bool _) => "bool"
  | .atom (.int _) => "int"
  | .atom (.float _) => "float"
  | .atom (.str _) => "str"
  | .operator _ => "Op"
  | .row _ => "tuple"

/-- A shape on its own as text. -/
def display : Shape → String
  | .atom c => c.display
  | .operator op => op.name
  | .row items => (row items).inspect

/-- What the host says when a row has no such item. -/
def noItem : Fault := .plain .index "tuple index out of range"

/-- What the host says when a text has no such character. -/
def noCharacter : Fault := .plain .index "string index out of range"

/-- What the host says when something has no items to ask for. -/
def noRow (s : Shape) : Fault :=
  .plain .type ("'" ++ s.className ++ "' object is not subscriptable")

/-- What the host says when something has no items to go through. -/
def notIterable (s : Shape) : Fault :=
  .plain .type ("'" ++ s.className ++ "' object is not iterable")

/-- What the host says when a row has another number of items than were named. -/
def unpacked (wanted given : Nat) : Fault :=
  .plain .value (
    if wanted < given then "too many values to unpack (expected " ++ toString wanted ++ ")"
    else "not enough values to unpack (expected " ++ toString wanted ++ ", got " ++
      toString given ++ ")")

/-- One item of a shape, as `choose` finds it in a row or among the characters of a text. -/
def item? (choose : {α : Type} → List α → Option α) (s : Shape) : Except Fault Shape :=
  match s with
  | .row items =>
    match choose items with
    | some item => .ok item
    | none => .error noItem
  | s =>
    match s.name? with
    | none => .error s.noRow
    | some text =>
      match choose text.toList with
      | some c => .ok (Node.wordShape (String.singleton c))
      | none => .error noCharacter

/-- The first item of a shape. -/
def head? (s : Shape) : Except Fault Shape := s.item? List.head?

/-- The last item of a shape. -/
def last? (s : Shape) : Except Fault Shape := s.item? List.getLast?

/-- The second item of a shape. -/
def second? (s : Shape) : Except Fault Shape := s.item? fun items => items[1]?

/-- The kind that a row starts with, if that is a word. -/
def rowKind? (s : Shape) : Option String :=
  s.items.head?.bind name?

/-! ### Faults -/

/-- A fault of a shape, at the line it ends with, whatever that is. -/
def faultAt (s : Shape) (cause : Cause) : Fault :=
  match s.last? with
  | .error fault => fault
  | .ok (.atom (.int line)) => .ofCause line cause
  | .ok line => .ofCause (.other line.toName) cause

/-- What is wrong with an item that should have items to go through. -/
def itemsFault (s : Shape) (i : Nat) : Fault :=
  match s.items[i]? with
  | some item => item.notIterable
  | none => noItem

/-- Whether a kind is one of an expression. -/
def isExpressionKind (kind : String) : Bool :=
  ["number", "string", "bool", "null", "list", "ident", "global", "executor", "condition",
    "placeholder", "member", "index", "call", "unary"].contains kind ||
  (Operator.ofName? kind).isSome

/-- How a run fails that has to evaluate a shape which fits no form; `text` is the shape as text.  A
name that is not registered is found out before the arguments are looked at: `unregistered` tells
whether that is so. -/
def expressionFault (s : Shape) (unregistered : String → Name → Option Fault)
    (text : Except Fault String) : Fault :=
  match s.head? with
  | .error fault => fault
  | .ok _ =>
    let kind := s.rowKind?.getD ""
    if isExpressionKind kind then
      match Node.sizeOf? kind with
      | some size =>
        if s.items.length != size then unpacked size s.items.length
        else
          ((s.items[1]?.map toName).bind (unregistered kind)).getD (s.itemsFault 2)
      | none => if kind == "list" then s.itemsFault 1 else noItem
    else
      match text with
      | .ok text => s.faultAt (.mismatch (.invalidExpression text))
      | .error fault => fault

/-- What is missing in a shape behind its first operand. -/
def tornFault (s : Shape) : Fault :=
  if s.kind == "call" then s.itemsFault 2 else noItem

/-- How a run fails that has to execute a shape which fits no form. -/
def statementFault (s : Shape) : Fault :=
  match s.head? with
  | .error fault => fault
  | .ok head =>
    let kind := s.rowKind?.getD ""
    if ["let", "assign", "if", "while", "for"].contains kind then
      unpacked ((Node.sizeOf? kind).getD 0) s.items.length
    else if kind == "block" then s.itemsFault 1
    else if ["expr_stmt", "cooldown"].contains kind then noItem
    else s.faultAt (.mismatch (.unknownStatement head.display))

/-! ### Analysis -/

/-- How the analysis of a program fails at its references: the key of a global is looked at whatever
it is. -/
def referenceFault? (s : Shape) : Option Fault :=
  match s.kind, s.items[1]? with
  | "global", some key =>
    match key.head? with
    | .error fault => some fault
    | .ok head =>
      match head.name? == some "string", key.second? with
      | true, .error fault => some fault
      | _, _ => none
  | _, _ => none

mutual

/-- How the listing of the nodes of a program fails, if something stands in the program that has no
statements in it. -/
def strayFault? : Shape → Option Fault
  | .row items => if isNodeRow items then none else strayFaultIn? items
  | s =>
    match s.name? with
    | none => some s.notIterable
    | some text =>
      if text.isEmpty then none else some (.plain .recursion "maximum recursion depth exceeded")

/-- How the listing of the nodes of a row fails, if it does. -/
def strayFaultIn? : List Shape → Option Fault
  | [] => none
  | s :: rest => (strayFault? s).or (strayFaultIn? rest)

end

/-- How the analysis of a program fails, if it does. -/
def analysisFault? (s : Shape) : Option Fault :=
  s.strayFault?.or (s.walk.findSome? referenceFault?)

/-- The nodes directly below whatever a shape is. -/
def childrenOf (s : Shape) : Except Fault (List Shape) :=
  match s with
  | .row _ => .ok s.children
  | s => if s.name?.isSome then .ok [] else .error s.noRow

/-! ### As text -/

/-- The kinds of statements that are written out. -/
def isWrittenKind (kind : String) : Bool :=
  isExpressionKind kind || ["cooldown", "let", "assign", "expr_stmt"].contains kind

/-- A shape that fits no form as text: its kind, unless something of what is written is missing. -/
def formatMisfit (s : Shape) : Except Fault String := do
  let head ← s.head?
  match s.rowKind? with
  | some "null" => return "null"
  | some kind =>
    if !isWrittenKind kind then return "<" ++ kind ++ ">"
    throw (if kind == "list" then s.itemsFault 1
      else if ["executor", "condition", "placeholder", "call"].contains kind then s.itemsFault 2
      else noItem)
  | none => return "<" ++ head.display ++ ">"

end TriggerEngine.Shape

namespace TriggerEngine.Node

/-- A fault at the line of a node. -/
def faultAt (node : Node) (cause : Cause) : Fault :=
  match node with
  | .torn _ shape => shape.faultAt cause
  | .other shape _ => shape.faultAt cause
  | node => .ofCause node.line cause

/-- What a watcher sees of a node: its kind and its line. -/
def heading (node : Node) : Except Fault (Shape × Shape) :=
  match node with
  | .other shape _ => do return (← shape.head?, ← shape.last?)
  | node => return (wordShape node.kind, lineShape node.line)

end TriggerEngine.Node
