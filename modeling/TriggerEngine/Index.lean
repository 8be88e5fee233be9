/-
**An index of scripts.**

For someone who edits scripts: what a script mentions of its host, once for each name and with the
number of its uses, and where a script does not compile.  The index keeps for every document what
its last version that compiled mentions.

Main definitions:

* `Mention`, `Mention.collect` — what a program mentions;
* `Diagnostic`, `Diagnostic.ofFault` — a remark on a place of a document;
* `Index` — what is kept of documents;
* `Index.update`, `Index.edit` — taking in a document;
* `Index.lookup`, `Index.hover`, `Index.outline` — asking about it.
-/

import TriggerEngine.Syntax.Grammar
import TriggerEngine.Table
import TriggerEngine.Text.Line
import TriggerEngine.Value.Heap

set_option autoImplicit false

namespace TriggerEngine

/-! ### Mentions -/

/-- Something of the host that a program mentions.  Lines are counted from zero. -/
structure Mention where
  /-- How it is named. -/
  kind : ReferenceKind
  /-- Its name. -/
  name : String
  /-- The line of its first use. -/
  line : Int
  /-- How often it is used. -/
  uses : Nat
  deriving DecidableEq, Repr

namespace Mention

/-- The kind of a mention in words. -/
def kindText (m : Mention) : String :=
  match m.kind with
  | .global => "global variable"
  | kind => kind.name

/-- The name of a mention as it stands in a script. -/
def fullName (m : Mention) : String :=
  m.kind.sigil ++ m.name

/-- A mention in words. -/
def detail (m : Mention) : String :=
  let times := if m.uses == 1 then "once" else toString m.uses ++ " times"
  m.kindText ++ " " ++ m.fullName ++ " (used " ++ times ++ ")"

/-- Counts a reference. -/
def note (r : Reference) : List Mention → List Mention
  | [] => [⟨r.kind, r.name.display, r.line - 1, 1⟩]
  | m :: rest =>
    if m.kind = r.kind ∧ m.name = r.name.display then { m with uses := m.uses + 1 } :: rest
    else m :: note r rest

/-- Counts references, the names in the order in which they came. -/
def gather (references : List Reference) : List Mention :=
  references.foldl (fun mentions r => note r mentions) []

/-- Whether a mention stands before another one or is the same: lines come first, then the names
of the kinds, then the names. -/
def isBefore (a b : Mention) : Bool :=
  if a.line = b.line then
    if a.kind = b.kind then decide (a.name ≤ b.name) else decide (a.kind.name ≤ b.kind.name)
  else decide (a.line ≤ b.line)

/-- What a program mentions, the first use first. -/
def collect (program : Program) : List Mention :=
  (gather program.toShape.references).mergeSort isBefore

end Mention

/-! ### Diagnostics -/

/-- A remark on one character of a document.  Lines and columns are counted from zero. -/
structure Diagnostic where
  /-- The line. -/
  line : Int
  /-- The column. -/
  column : Int
  /-- The remark. -/
  message : String
  deriving DecidableEq, Repr

namespace Diagnostic

/-- Where remarks come from. -/
def source : String := "trigscript"

/-- The severity of an error. -/
def severity : Nat := 1

/-- What the host says about a fault that lacks a part. -/
def lacks (fault : Fault) (part : String) : Fault :=
  .plain .attribute ("'" ++ fault.className ++ "' object has no attribute '" ++ part ++ "'")

/-- What the host says about a part that nothing can be taken from. -/
def notCounted (className : String) : Fault :=
  .plain .type ("unsupported operand type(s) for -: '" ++ className ++ "' and 'int'")

/-- A number counted from one, as a number counted from zero; one that is missing is the first. -/
def fromZero (h : Heap) (d : Detail) : Except Fault Int :=
  match d with
  | .foreign className _ => .error (notCounted className)
  | .value v =>
    if !h.truthy v then .ok 0
    else
      match v.index? with
      | some n => .ok (max (n - 1) 0)
      | none => .error (notCounted v.className)

/-- A part of a fault. -/
def part (fault : Fault) (name : String) : Except Fault Detail :=
  match fault.details.lookup name with
  | some v => .ok v
  | none => .error (lacks fault name)

/-- The remark on a fault of a text. -/
def ofFault (h : Heap) (display : Detail → Except Fault String) (fault : Fault) :
    Except Fault Diagnostic := do
  let line ← fromZero h (← part fault "line")
  let column ← fromZero h (← part fault "column")
  let text ← display (← part fault "text")
  return ⟨line, column, fault.className ++ ": " ++ text⟩

end Diagnostic

/-! ### The index -/

/-- What is kept of documents. -/
structure Index where
  /-- What the last version of a document that compiled mentions. -/
  mentions : Table (List Mention) := .empty
  /-- The documents that are being edited. -/
  texts : Table String := .empty

namespace Index

/-- The text of a value that is one. -/
def plainText : Detail → Except Fault String
  | .value (.str s _) => .ok s
  | _ => .ok ""

/-- Takes in a version of a document; the answer are the remarks on it.  One that does not compile
leaves the mentions as they are. -/
def update (index : Index) (name text : String) : Except Fault (List Diagnostic) × Index :=
  match compile name text with
  | .ok program =>
    (.ok [], { index with mentions := index.mentions.put name (Mention.collect program) })
  | .error fault =>
    if fault.isCompile then ((Diagnostic.ofFault {} plainText fault).map ([·]), index)
    else (.error fault, index)

/-- Takes in a version of a document that is being edited. -/
def edit (index : Index) (name text : String) : Except Fault (List Diagnostic) × Index :=
  { index with texts := index.texts.put name text }.update name text

/-- What a document mentions. -/
def outline (index : Index) (name : String) : List Mention :=
  (index.mentions.get? name).getD []

/-- The first mention of a name in a document. -/
def lookup (index : Index) (name word : String) : Option Mention :=
  (index.outline name).find? fun m => m.name == word

/-- The word at a place of a document that is being edited, empty if there is none. -/
def wordAt (index : Index) (name : String) (line column : Nat) : String :=
  let lines := Text.lines ((index.texts.get? name).getD "")
  String.ofList (Text.wordAt (lines[line]?.getD []) column)

/-- What is to be said about a place of a document. -/
def hover (index : Index) (name : String) (line column : Nat) : Option String :=
  let word := index.wordAt name line column
  if word.isEmpty then none else (index.lookup name word).map Mention.detail

end Index

end TriggerEngine
