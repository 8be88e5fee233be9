/-
**Nodes.**

The tree of a program.  Expressions and statements are nodes of one type, since a tree may be
given from outside and need not have been read from a script: a statement can stand where an
expression should, and the run has to say so.

A shape is read as a node by its places: the kind stands first, the line last, and what belongs to
the kind behind it.  Most forms do not mind further items; those that have a fixed number of items
are kept as they are if the number is another one, and so is a shape that lacks something.

Main definitions:

* `LiteralKind`, `Role`, `Node` — the types;
* `Node.kind`, `Node.line` — what a node is called and where it stands;
* `Node.toShape`, `Node.ofShape` — between nodes and shapes;
* `Program`, `Program.toShape`, `Program.ofShape` — statements in a row.
-/

import TriggerEngine.Syntax.Shape

set_option autoImplicit false

namespace TriggerEngine

/-! ### The types -/

/-- The four sorts of literals. -/
inductive LiteralKind where
  | number | string | bool | null
  deriving DecidableEq, Repr

/-- The name of a sort of literals. -/
def LiteralKind.name : LiteralKind → String
  | .number => "number"
  | .string => "string"
  | .bool => "bool"
  | .null => "null"

/-- The parts that named routines of the host play in a script. -/
inductive Role where
  /-- Does something. -/
  | executor
  /-- Decides something. -/
  | condition
  /-- Stands for a value. -/
  | placeholder
  deriving DecidableEq, Repr

/-- The name of a role. -/
def Role.name : Role → String
  | .executor => "executor"
  | .condition => "condition"
  | .placeholder => "placeholder"

/-- How a role is marked in a script. -/
def Role.sigil : Role → String
  | .executor => "#"
  | .condition => "@"
  | .placeholder => "$"

/-- A node of a program. -/
inductive Node where
  /-- A literal, with what tells it from the other literals of its line. -/
  | literal (kind : LiteralKind) (value : Constant) (line : Line) (tag : Nat)
  /-- A list of expressions. -/
  | list (items : List Node) (line : Line)
  /-- A variable. -/
  | ident (name : Name) (line : Line)
  /-- A global, by an expression for its name. -/
  | global (key : Node) (line : Line)
  /-- A named routine of the host with arguments. -/
  | reference (role : Role) (name : Name) (args : List Node) (line : Line)
  /-- A member of a value. -/
  | member (target : Node) (name : Name) (line : Line)
  /-- An item of a value. -/
  | index (target key : Node) (line : Line)
  /-- A call of a value. -/
  | call (callee : Node) (args : List Node) (line : Line)
  /-- An operator before its operand. -/
  | unary (op : Operator) (operand : Node) (line : Line)
  /-- Something else before an operand, which counts as a plus. -/
  | sign (name : Name) (operand : Node) (line : Line)
  /-- An operator between its operands. -/
  | binary (op : Operator) (left right : Node) (line : Line)
  /-- A declaration of a variable, with its first value if it has one. -/
  | declare (name : Name) (value : Option Node) (line : Line)
  /-- An assignment. -/
  | assign (target value : Node) (line : Line)
  /-- An expression as a statement. -/
  | expression (value : Node) (line : Line)
  /-- A block of statements. -/
  | block (body : List Node) (line : Line)
  /-- A conditional, with what happens otherwise if something does. -/
  | conditional (test body : Node) (otherwise : Option Node) (line : Line)
  /-- A loop as long as an expression holds. -/
  | repetition (test body : Node) (line : Line)
  /-- A loop over the items of a value, or over whole numbers from `source` up to `bound`. -/
  | iteration (name : Name) (source : Node) (bound : Option Node) (body : Node) (line : Line)
  /-- Leaves the loop around. -/
  | leave (line : Line)
  /-- Goes on with the next round of the loop around. -/
  | next (line : Line)
  /-- Sets the cooldown. -/
  | cooldown (seconds : Node) (line : Line)
  /-- A shape that lacks something behind its first operand. -/
  | torn (first : Node) (shape : Shape)
  /-- A shape that fits no form, with the form it has if its items are not counted. -/
  | other (shape : Shape) (form : Option Node)

namespace Node

/-- Where a shape says that it stands: what it ends with. -/
def lineOf (s : Shape) : Line :=
  match s.items.getLast? with
  | some (.atom (.int n)) => .number n
  | some last => .other last.toName
  | none => .other .null

/-- The line of a node. -/
def line : Node → Line
  | .literal _ _ l _ => l
  | .list _ l => l
  | .ident _ l => l
  | .global _ l => l
  | .reference _ _ _ l => l
  | .member _ _ l => l
  | .index _ _ l => l
  | .call _ _ l => l
  | .unary _ _ l => l
  | .sign _ _ l => l
  | .binary _ _ _ l => l
  | .declare _ _ l => l
  | .assign _ _ l => l
  | .expression _ l => l
  | .block _ l => l
  | .conditional _ _ _ l => l
  | .repetition _ _ l => l
  | .iteration _ _ _ _ l => l
  | .leave l => l
  | .next l => l
  | .cooldown _ l => l
  | .torn _ shape => lineOf shape
  | .other shape _ => lineOf shape

/-- The kind of a node. -/
def kind : Node → String
  | .literal kind _ _ _ => kind.name
  | .list _ _ => "list"
  | .ident _ _ => "ident"
  | .global _ _ => "global"
  | .reference role _ _ _ => role.name
  | .member _ _ _ => "member"
  | .index _ _ _ => "index"
  | .call _ _ _ => "call"
  | .unary _ _ _ => "unary"
  | .sign _ _ _ => "unary"
  | .binary op _ _ _ => op.name
  | .declare _ _ _ => "let"
  | .assign _ _ _ => "assign"
  | .expression _ _ => "expr_stmt"
  | .block _ _ => "block"
  | .conditional _ _ _ _ => "if"
  | .repetition _ _ _ => "while"
  | .iteration _ _ _ _ _ => "for"
  | .leave _ => "break"
  | .next _ => "continue"
  | .cooldown _ _ => "cooldown"
  | .torn _ shape => shape.kind
  | .other shape _ => shape.kind

/-- Whether a node is a number. -/
def isNumber : Node → Bool
  | .literal .number _ _ _ => true
  | _ => false

/-! ### To shapes -/

/-- A word in a shape. -/
def wordShape (word : String) : Shape :=
  .atom (.str word)

/-- A name in a shape. -/
def nameShape : Name → Shape
  | .word s => wordShape s
  | .null => .atom .null
  | .bool b => .atom (.bool b)
  | .int n => .atom (.int n)
  | .float bits => .atom (.float (Float.ofBits bits))
  | .row writing => wordShape writing

/-- A line in a shape. -/
def lineShape : Line → Shape
  | .number n => .atom (.int n)
  | .other name => nameShape name

mutual

/-- The shape of a node. -/
def toShape : Node → Shape
  | .literal kind value l _ => .row [wordShape kind.name, .atom value, lineShape l]
  | .list items l => .row [wordShape "list", .row (toShapes items), lineShape l]
  | .ident name l => .row [wordShape "ident", nameShape name, lineShape l]
  | .global key l => .row [wordShape "global", toShape key, lineShape l]
  | .reference role name args l =>
    .row [wordShape role.name, nameShape name, .row (toShapes args), lineShape l]
  | .member target name l =>
    .row [wordShape "member", toShape target, nameShape name, lineShape l]
  | .index target key l => .row [wordShape "index", toShape target, toShape key, lineShape l]
  | .call callee args l =>
    .row [wordShape "call", toShape callee, .row (toShapes args), lineShape l]
  | .unary op operand l => .row [wordShape "unary", .operator op, toShape operand, lineShape l]
  | .sign name operand l => .row [wordShape "unary", nameShape name, toShape operand, lineShape l]
  | .binary op left right l => .row [.operator op, toShape left, toShape right, lineShape l]
  | .declare name none l =>
    .row [wordShape "let", nameShape name, .atom .null, lineShape l]
  | .declare name (some value) l =>
    .row [wordShape "let", nameShape name, toShape value, lineShape l]
  | .assign target value l =>
    .row [wordShape "assign", toShape target, toShape value, lineShape l]
  | .expression value l => .row [wordShape "expr_stmt", toShape value, lineShape l]
  | .block body l => .row [wordShape "block", .row (toShapes body), lineShape l]
  | .conditional test body none l =>
    .row [wordShape "if", toShape test, toShape body, .atom .null, lineShape l]
  | .conditional test body (some otherwise) l =>
    .row [wordShape "if", toShape test, toShape body, toShape otherwise, lineShape l]
  | .repetition test body l =>
    .row [wordShape "while", toShape test, toShape body, lineShape l]
  | .iteration name source none body l =>
    .row [wordShape "for", nameShape name, toShape source, .atom .null, toShape body, lineShape l]
  | .iteration name source (some bound) body l =>
    .row [wordShape "for", nameShape name, toShape source, toShape bound, toShape body,
      lineShape l]
  | .leave l => .row [wordShape "break", lineShape l]
  | .next l => .row [wordShape "continue", lineShape l]
  | .cooldown seconds l => .row [wordShape "cooldown", toShape seconds, lineShape l]
  | .torn _ shape => shape
  | .other shape _ => shape

/-- The shapes of a row of nodes. -/
def toShapes : List Node → List Shape
  | [] => []
  | n :: rest => toShape n :: toShapes rest

end

/-! ### From shapes -/

/-- An item of a row in all the ways in which a form may take it. -/
structure Part where
  /-- The item itself. -/
  shape : Shape
  /-- The node it is. -/
  node : Node
  /-- Its own items as nodes, if it has items. -/
  nodes : Option (List Node)

namespace Part

/-- The constant that an item is. -/
def constant? (p : Part) : Option Constant :=
  match p.shape with
  | .atom c => some c
  | .operator op => some (.str op.name)
  | .row _ => none

/-- The operator that an item is. -/
def operator? (p : Part) : Option Operator :=
  match p.shape with
  | .operator op => some op
  | _ => none

/-- The name that an item is. -/
def name (p : Part) : Name := p.shape.toName

/-- The node that an item is, unless it is nothing. -/
def optional (p : Part) : Option Node :=
  match p.shape with
  | .atom .null => none
  | _ => some p.node

end Part

/-- The node of a kind with the items behind it, as many as the form needs. -/
def formOf? (shape : Shape) (kind : String) (parts : List Part) (tag : Nat) : Option Node :=
  let line := lineOf shape
  match kind, parts with
  | "number", a :: _ => a.constant?.map (.literal .number · line tag)
  | "string", a :: _ => a.constant?.map (.literal .string · line tag)
  | "bool", a :: _ => a.constant?.map (.literal .bool · line tag)
  | "null", a :: _ => a.constant?.map (.literal .null · line tag)
  | "list", a :: _ => a.nodes.map (.list · line)
  | "ident", a :: _ => some (.ident a.name line)
  | "global", a :: _ => some (.global a.node line)
  | "executor", a :: b :: _ => b.nodes.map (.reference .executor a.name · line)
  | "condition", a :: b :: _ => b.nodes.map (.reference .condition a.name · line)
  | "placeholder", a :: b :: _ => b.nodes.map (.reference .placeholder a.name · line)
  | "member", a :: b :: _ => some (.member a.node b.name line)
  | "index", a :: b :: _ => some (.index a.node b.node line)
  | "call", a :: b :: _ =>
    match b.nodes with
    | some args => some (.call a.node args line)
    | none => some (.torn a.node shape)
  | "unary", a :: b :: _ =>
    match a.operator? with
    | some op => some (.unary op b.node line)
    | none => some (.sign a.name b.node line)
  | "let", a :: b :: _ => some (.declare a.name b.optional line)
  | "assign", a :: b :: _ => some (.assign a.node b.node line)
  | "expr_stmt", a :: _ => some (.expression a.node line)
  | "block", a :: _ => a.nodes.map (.block · line)
  | "if", a :: b :: c :: _ => some (.conditional a.node b.node c.optional line)
  | "while", a :: b :: _ => some (.repetition a.node b.node line)
  | "for", a :: b :: c :: d :: _ => some (.iteration a.name b.node c.optional d.node line)
  | "break", _ => some (.leave line)
  | "continue", _ => some (.next line)
  | "cooldown", a :: _ => some (.cooldown a.node line)
  | _, _ => none

/-- How many items a node of a kind has, for the kinds that say so. -/
def sizeOf? (kind : String) : Option Nat :=
  if ["executor", "condition", "placeholder", "member", "index", "call", "let", "assign",
    "while"].contains kind then some 4
  else if kind == "if" then some 5
  else if kind == "for" then some 6
  else none

/-- The node that a row is. -/
def ofRow (items : List Shape) (parts : List Part) (tag : Nat) : Node :=
  let shape := Shape.row items
  match items, parts with
  | .operator op :: _, _ :: a :: b :: _ => .binary op a.node b.node (lineOf shape)
  | .operator _ :: _, _ :: a :: _ => .torn a.node shape
  | .atom (.str kind) :: _, _ :: rest =>
    let form := formOf? shape kind rest tag
    match sizeOf? kind with
    | some size => if items.length == size then form.getD (.other shape none) else .other shape form
    | none => form.getD (.other shape none)
  | _, _ => .other shape none

/-- The characters of a text as nodes. -/
def characters (s : String) : List Node :=
  s.toList.map fun c => .other (wordShape (String.singleton c)) none

mutual

/-- A shape as an item of a row; rows are numbered from `tag` on, and the next number is given
back. -/
def partOf (tag : Nat) : Shape → Part × Nat
  | .atom (.str s) => (⟨.atom (.str s), .other (.atom (.str s)) none, some (characters s)⟩, tag)
  | .atom c => (⟨.atom c, .other (.atom c) none, none⟩, tag)
  | .operator op =>
    (⟨.operator op, .other (.operator op) none, some (characters op.name)⟩, tag)
  | .row items =>
    match partsOf tag items with
    | (parts, tag) =>
      (⟨.row items, ofRow items parts tag, some (parts.map Part.node)⟩, tag + 1)

/-- The items of a row. -/
def partsOf (tag : Nat) : List Shape → List Part × Nat
  | [] => ([], tag)
  | s :: rest =>
    match partOf tag s with
    | (part, tag) =>
      match partsOf tag rest with
      | (parts, tag) => (part :: parts, tag)

end

/-- The node that a shape is; one that fits no form is kept as it is. -/
def ofShape (s : Shape) : Node :=
  (partOf 0 s).1.node

end Node

/-- A program: its statements. -/
abbrev Program := List Node

/-- The shape of a program: the row of its statements. -/
def Program.toShape (program : Program) : Shape :=
  .row (Node.toShapes program)

/-- The program that a shape is: the nodes in its row. -/
def Program.ofShape (s : Shape) : Program :=
  (Node.partOf 0 s).1.nodes.getD []

end TriggerEngine
