/-
**Well-formed trees.**

The type of nodes also holds trees from outside: rows that lack an item, rows that fit no form,
signs that are no operators, expressions in the place of statements.  The well-formed trees are the
ones that stay away from all of that.  Expressions consist of expressions only, under operators
that take so many operands; statements hold expressions and statements where they belong, and the
statements that leave or continue a loop stand inside one.

Faults are sorted accordingly.  Those with which a run answers a tree of the wrong form are
structural, and the two that loops listen to are signals.  One more stands apart, that too many
nodes were visited; all others are ordinary.

Main definitions:

* `Node.IsExpression`, `Node.IsStatement` — well-formed trees, with `Node.AreExpressions` and
  `Node.AreStatements` for rows;
* `Fault.isSignal`, `Fault.isStructural`, `Fault.isStepLimit`, `Fault.isOrdinary` — kinds of faults;
* `Fault.IsFor` — what a cause comes to as a fault;
* `Fault.IsBlunt` — faults of operations that blame no line;
* `Node.nodes` — the nodes of a tree;
* `IsTame` — results that fail in ordinary ways only.

Main results:

* `Fault.isOrdinary_ofCause`, `Node.isOrdinary_faultAt` — an ordinary cause makes an ordinary fault;
* `Node.isTame_format` — writing a node fails in ordinary ways only.
-/

import TriggerEngine.Proofs.Value.Failure
import TriggerEngine.Syntax.Printer

set_option autoImplicit false

namespace TriggerEngine

/-! ### Trees -/

namespace Node

mutual

/-- Whether a node is an expression whose parts are expressions. -/
def IsExpression : Node → Prop
  | .literal _ _ _ _ => True
  | .list items _ => AreExpressions items
  | .ident _ _ => True
  | .global key _ => IsExpression key
  | .reference _ _ args _ => AreExpressions args
  | .member target _ _ => IsExpression target
  | .index target key _ => IsExpression target ∧ IsExpression key
  | .call callee args _ => IsExpression callee ∧ AreExpressions args
  | .unary op operand _ => (op = .not ∨ op = .add ∨ op = .sub) ∧ IsExpression operand
  | .binary op left right _ => op ≠ .not ∧ IsExpression left ∧ IsExpression right
  | _ => False

/-- Whether all nodes of a row are expressions. -/
def AreExpressions : List Node → Prop
  | [] => True
  | node :: rest => IsExpression node ∧ AreExpressions rest

end

/-- Whether a node is something that can be assigned to. -/
def IsTarget : Node → Prop
  | .ident _ _ => True
  | .global key _ => IsExpression key
  | _ => False

mutual

/-- Whether a node is a statement whose parts are what they should be, for a place that is inside a
loop or is not. -/
def IsStatement : Bool → Node → Prop
  | _, .declare _ none _ => True
  | _, .declare _ (some value) _ => IsExpression value
  | _, .assign target value _ => IsTarget target ∧ IsExpression value
  | _, .expression value _ => IsExpression value
  | looped, .block body _ => AreStatements looped body
  | looped, .conditional test body none _ => IsExpression test ∧ IsStatement looped body
  | looped, .conditional test body (some otherwise) _ =>
    IsExpression test ∧ IsStatement looped body ∧ IsStatement looped otherwise
  | _, .repetition test body _ => IsExpression test ∧ IsStatement true body
  | _, .iteration _ source none body _ => IsExpression source ∧ IsStatement true body
  | _, .iteration _ source (some bound) body _ =>
    IsExpression source ∧ IsExpression bound ∧ IsStatement true body
  | looped, .leave _ => looped = true
  | looped, .next _ => looped = true
  | _, .cooldown seconds _ => IsExpression seconds
  | _, _ => False

/-- Whether all nodes of a row are statements. -/
def AreStatements : Bool → List Node → Prop
  | _, [] => True
  | looped, node :: rest => IsStatement looped node ∧ AreStatements looped rest

end

/-- Whether a node is an expression or a statement. -/
def IsWellFormed (node : Node) : Prop :=
  IsExpression node ∨ ∃ looped, IsStatement looped node

mutual

/-- The nodes of a tree, itself first. -/
def nodes : Node → List Node
  | .list items line => .list items line :: nodesOf items
  | .global key line => .global key line :: nodes key
  | .reference role name args line => .reference role name args line :: nodesOf args
  | .member target name line => .member target name line :: nodes target
  | .index target key line => .index target key line :: (nodes target ++ nodes key)
  | .call callee args line => .call callee args line :: (nodes callee ++ nodesOf args)
  | .unary op operand line => .unary op operand line :: nodes operand
  | .sign name operand line => .sign name operand line :: nodes operand
  | .binary op left right line => .binary op left right line :: (nodes left ++ nodes right)
  | .declare name (some value) line => .declare name (some value) line :: nodes value
  | .assign target value line => .assign target value line :: (nodes target ++ nodes value)
  | .expression value line => .expression value line :: nodes value
  | .block body line => .block body line :: nodesOf body
  | .conditional test body none line =>
    .conditional test body none line :: (nodes test ++ nodes body)
  | .conditional test body (some otherwise) line =>
    .conditional test body (some otherwise) line :: (nodes test ++ nodes body ++ nodes otherwise)
  | .repetition test body line => .repetition test body line :: (nodes test ++ nodes body)
  | .iteration name source none body line =>
    .iteration name source none body line :: (nodes source ++ nodes body)
  | .iteration name source (some bound) body line =>
    .iteration name source (some bound) body line :: (nodes source ++ nodes bound ++ nodes body)
  | .cooldown seconds line => .cooldown seconds line :: nodes seconds
  | .torn first shape => .torn first shape :: nodes first
  | node => [node]

/-- The nodes of a row of trees. -/
def nodesOf : List Node → List Node
  | [] => []
  | node :: rest => nodes node ++ nodesOf rest

end

theorem mem_nodes (node : Node) : node ∈ node.nodes := by
  cases node with
  | declare name value line => cases value <;> simp [nodes]
  | conditional test body otherwise line => cases otherwise <;> simp [nodes]
  | iteration name source bound body line => cases bound <;> simp [nodes]
  | _ => simp [nodes]

end Node

/-! ### Faults -/

/-- Whether a mismatch is about the form of a tree. -/
def Mismatch.isStructural : Mismatch → Bool
  | .invalidExpression _ => true
  | .unknownStatement _ => true
  | _ => false

namespace Cause

/-- Whether a cause is about the form of a tree. -/
def isStructural : Cause → Bool
  | .mismatch what => what.isStructural
  | _ => false

/-- Whether a cause is that too many nodes were visited. -/
def isStepLimit : Cause → Bool
  | .limit (.steps _) => true
  | _ => false

/-- Whether a cause is neither about the form of a tree nor about the number of nodes visited. -/
def isOrdinary (cause : Cause) : Bool :=
  !cause.isStructural && !cause.isStepLimit

end Cause

namespace Fault

/-- Whether a fault is a request to a loop. -/
def isSignal : Fault → Bool
  | .leave _ _ => true
  | .next _ _ => true
  | _ => false

/-- Whether a fault is about the form of a tree. -/
def isStructural : Fault → Bool
  | .script cause _ => cause.isStructural
  | _ => false

/-- Whether a fault is that too many nodes were visited. -/
def isStepLimit : Fault → Bool
  | .script cause _ => cause.isStepLimit
  | _ => false

/-- Whether a fault has nothing to do with what a tree says: too many nodes were visited, or nobody
catches the fault. -/
def isFinal (fault : Fault) : Bool :=
  fault.isStepLimit || !fault.isCaught

/-- Whether a fault is none of that: no request to a loop, neither about the form of a tree nor
about the number of nodes visited, and one that is caught. -/
def isOrdinary (fault : Fault) : Bool :=
  !fault.isSignal && !fault.isStructural && !fault.isFinal

theorem isOrdinary_iff {fault : Fault} : fault.isOrdinary = true ↔
    fault.isSignal = false ∧ fault.isStructural = false ∧ fault.isFinal = false := by
  simp only [isOrdinary, Bool.and_eq_true, Bool.not_eq_true', and_assoc]

/-- What a fault for a cause is: the cause at a line, or something ordinary if there is no telling
the line. -/
def IsFor (cause : Cause) (fault : Fault) : Prop :=
  (∃ line, fault = .script cause line) ∨ fault.isOrdinary = true

theorem isFor_ofCause (line : Line) (cause : Cause) : (Fault.ofCause line cause).IsFor cause := by
  unfold Fault.ofCause
  split
  · split
    · exact .inl ⟨_, rfl⟩
    · exact .inr rfl
  · exact .inl ⟨_, rfl⟩
  · exact .inr rfl

namespace IsFor

variable {cause : Cause} {fault : Fault} (h : fault.IsFor cause)

include h

theorem isSignal : fault.isSignal = false := by
  rcases h with ⟨line, rfl⟩ | hordinary
  · rfl
  · exact (isOrdinary_iff.1 hordinary).1

theorem isStructural (hcause : cause.isStructural = false) : fault.isStructural = false := by
  rcases h with ⟨line, rfl⟩ | hordinary
  · exact hcause
  · exact (isOrdinary_iff.1 hordinary).2.1

theorem isFinal (hcause : cause.isStepLimit = false) : fault.isFinal = false := by
  rcases h with ⟨line, rfl⟩ | hordinary
  · simpa only [Fault.isFinal, isStepLimit, isCaught, Bool.not_true, Bool.or_false] using hcause
  · exact (isOrdinary_iff.1 hordinary).2.2

theorem isOrdinary (hcause : cause.isOrdinary = true) : fault.isOrdinary = true := by
  simp only [Cause.isOrdinary, Bool.and_eq_true, Bool.not_eq_true'] at hcause
  exact isOrdinary_iff.2 ⟨h.isSignal, h.isStructural hcause.1, h.isFinal hcause.2⟩

end IsFor

theorem isOrdinary_ofCause (line : Line) {cause : Cause} (h : cause.isOrdinary = true) :
    (Fault.ofCause line cause).isOrdinary = true :=
  (isFor_ofCause line cause).isOrdinary h

end Fault

/-- The faults of operations on values that blame no line of the script. -/
inductive Fault.IsBlunt : Fault → Prop
  /-- There is no room left. -/
  | noRoom (text : String) : IsBlunt (.plain .recursion text)
  /-- A whole number has too many digits to be written. -/
  | digits : IsBlunt .tooManyDigits
  /-- A number is too large for a double. -/
  | number (trouble : Number.Trouble) : IsBlunt (.ofTrouble trouble)
  /-- Something is to be repeated too often. -/
  | count : IsBlunt (.plain .overflow "cannot fit 'int' into an index-sized integer")
  /-- A text would be too long. -/
  | length : IsBlunt (.plain .overflow "repeated string is too long")
  /-- There is no memory left. -/
  | memory : IsBlunt (.plain .memory "")
  /-- A value cannot be a key. -/
  | key (v : Value) : IsBlunt (.unhashable v)

theorem Fault.IsBlunt.isOrdinary {fault : Fault} (h : fault.IsBlunt) : fault.isOrdinary = true := by
  cases h <;> rfl

/-- A result that fails in ordinary ways only. -/
abbrev IsTame {α : Type} (result : Except Fault α) : Prop :=
  FailsOnly (fun fault => fault.isOrdinary = true) result

/-! ### Faults at nodes -/

namespace Shape

theorem isTame_item (choose : {α : Type} → List α → Option α) (s : Shape) :
    IsTame (s.item? choose) := by
  unfold Shape.item?
  split
  · split
    · exact .ok _
    · exact .error rfl
  · split
    · exact .error rfl
    · split
      · exact .ok _
      · exact .error rfl

theorem isFor_faultAt (s : Shape) (cause : Cause) : (s.faultAt cause).IsFor cause := by
  unfold Shape.faultAt
  split
  · rename_i fault hfault
    exact .inr (s.isTame_item _ fault hfault)
  · exact Fault.isFor_ofCause _ cause
  · exact Fault.isFor_ofCause _ cause

theorem isOrdinary_itemsFault (s : Shape) (i : Nat) : (s.itemsFault i).isOrdinary = true := by
  unfold itemsFault
  split <;> rfl

theorem isOrdinary_tornFault (s : Shape) : s.tornFault.isOrdinary = true := by
  unfold tornFault
  split
  · exact s.isOrdinary_itemsFault 2
  · rfl

theorem isTame_formatMisfit (s : Shape) : IsTame s.formatMisfit := by
  refine (s.isTame_item _).bind fun head => ?_
  split
  · exact .ok _
  · split
    · exact .ok _
    · refine .error ?_
      split
      · exact s.isOrdinary_itemsFault 1
      · split
        · exact s.isOrdinary_itemsFault 2
        · rfl
  · exact .ok _

theorem isFinal_statementFault (s : Shape) : s.statementFault.isFinal = false := by
  unfold statementFault
  split
  · rename_i fault hfault
    exact (Fault.isOrdinary_iff.1 (s.isTame_item _ fault hfault)).2.2
  · dsimp only
    split
    · rfl
    · split
      · exact (Fault.isOrdinary_iff.1 (s.isOrdinary_itemsFault 1)).2.2
      · split
        · rfl
        · exact (s.isFor_faultAt _).isFinal rfl

theorem isFinal_expressionFault (s : Shape) {unregistered : String → Name → Option Fault}
    {text : Except Fault String}
    (hmissing : ∀ kind name fault, unregistered kind name = some fault →
      fault.isFinal = false) (htext : IsTame text) :
    (s.expressionFault unregistered text).isFinal = false := by
  have hitems : ∀ i, (s.itemsFault i).isFinal = false :=
    fun i => (Fault.isOrdinary_iff.1 (s.isOrdinary_itemsFault i)).2.2
  unfold expressionFault
  split
  · rename_i fault hfault
    exact (Fault.isOrdinary_iff.1 (s.isTame_item _ fault hfault)).2.2
  · dsimp only
    split
    · split
      · split
        · rfl
        · cases hfault : (s.items[1]?.map toName).bind (unregistered (s.rowKind?.getD "")) with
          | none => exact hitems 2
          | some fault =>
              obtain ⟨name, -, hname⟩ := Option.bind_eq_some_iff.1 hfault
              exact hmissing _ name fault hname
      · split
        · exact hitems 1
        · rfl
    · split
      · exact (s.isFor_faultAt _).isFinal rfl
      · exact (Fault.isOrdinary_iff.1 (htext _ rfl)).2.2

end Shape

namespace Node

theorem isFor_faultAt (node : Node) (cause : Cause) : (node.faultAt cause).IsFor cause := by
  unfold Node.faultAt
  split
  · exact Shape.isFor_faultAt _ cause
  · exact Shape.isFor_faultAt _ cause
  · exact Fault.isFor_ofCause _ cause

theorem isOrdinary_faultAt (node : Node) {cause : Cause} (h : cause.isOrdinary = true) :
    (node.faultAt cause).isOrdinary = true :=
  (node.isFor_faultAt cause).isOrdinary h

/-! ### Writing nodes -/

/-- The faults with which writing a node may fail; if it need not be an expression, these are all
ordinary ones. -/
structure WritingFaults (P : Fault → Prop) (strict : Bool) : Prop where
  digits : P .tooManyDigits
  loose : strict = false → ∀ {fault : Fault}, fault.isOrdinary = true → P fault

namespace WritingFaults

variable {P : Fault → Prop} {strict : Bool} (W : WritingFaults P strict)

include W

theorem written (value : Constant) : FailsOnly P value.written := by
  unfold Constant.written
  split
  · split
    · exact .ok _
    · exact .error W.digits
  · exact .ok _

theorem formatLiteral (kind : LiteralKind) (value : Constant) :
    FailsOnly P (Node.formatLiteral kind value) := by
  unfold Node.formatLiteral
  split
  · exact W.written _
  · exact (W.written _).map _
  · exact .ok _
  · exact W.written _
  · exact .ok _

theorem format_global {key : Node} (line : Line) (h : FailsOnly P key.format) :
    FailsOnly P (Node.global key line).format := by
  cases key with
  | literal kind value l tag =>
      cases kind with
      | string => exact (W.written value).bind fun _ => .ok _
      | _ => exact h.bind fun _ => .ok _
  | _ => exact h.bind fun _ => .ok _

omit W in
theorem format_reference {args : List Node} (role : Role) (name : Name) (line : Line)
    (h : FailsOnly P (formatAll args)) : FailsOnly P (Node.reference role name args line).format := by
  cases args with
  | nil =>
      cases role with
      | placeholder => exact .ok _
      | _ => exact h.bind fun _ => .ok _
  | cons node rest => cases role <;> exact h.bind fun _ => .ok _

theorem misfit (h : strict = true → False) {result : Except Fault String} (hresult : IsTame result) :
    FailsOnly P result :=
  fun _ hfault => W.loose (Bool.eq_false_iff.2 h) (hresult _ hfault)

omit W

mutual

theorem format (W : WritingFaults P strict) : ∀ node : Node, (strict = true → node.IsExpression) →
    FailsOnly P node.format
  | .literal kind value _ _, _ => W.formatLiteral kind value
  | .list items _, h => (W.formatAll items h).bind fun _ => .ok _
  | .ident _ _, _ => .ok _
  | .global key line, h => W.format_global line (W.format key h)
  | .reference role name args line, h => format_reference role name line (W.formatAll args h)
  | .member target _ _, h => (W.format target h).bind fun _ => .ok _
  | .index target key _, h =>
      (W.format target fun hs => (h hs).1).bind fun _ =>
        (W.format key fun hs => (h hs).2).bind fun _ => .ok _
  | .call callee args _, h =>
      (W.format callee fun hs => (h hs).1).bind fun _ =>
        (W.formatAll args fun hs => (h hs).2).bind fun _ => .ok _
  | .unary _ operand _, h => (W.format operand fun hs => (h hs).2).bind fun _ => .ok _
  | .sign _ _ _, h => W.misfit h (.error rfl)
  | .binary _ left right _, h =>
      (W.format left fun hs => (h hs).2.1).bind fun _ =>
        (W.format right fun hs => (h hs).2.2).bind fun _ => .ok _
  | .cooldown seconds _, h => (W.format seconds fun hs => (h hs).elim).bind fun _ => .ok _
  | .declare _ none _, _ => .ok _
  | .declare _ (some value) _, h => (W.format value fun hs => (h hs).elim).bind fun _ => .ok _
  | .assign target value _, h =>
      (W.format target fun hs => (h hs).elim).bind fun _ =>
        (W.format value fun hs => (h hs).elim).bind fun _ => .ok _
  | .expression value _, h => W.format value fun hs => (h hs).elim
  | .torn first shape, h =>
      ((W.format first fun hs => (h hs).elim).map _).bind fun _ =>
        W.misfit h (.error shape.isOrdinary_tornFault)
  | .other _ (some form), h => W.format form fun hs => (h hs).elim
  | .other shape none, h => W.misfit h shape.isTame_formatMisfit
  | .block _ _, _ | .conditional _ _ _ _, _ | .repetition _ _ _, _ | .iteration _ _ _ _ _, _
  | .leave _, _ | .next _, _ => .ok _

theorem formatAll (W : WritingFaults P strict) : ∀ nodes : List Node,
    (strict = true → AreExpressions nodes) → FailsOnly P (Node.formatAll nodes)
  | [], _ => .ok _
  | node :: rest, h =>
      (W.format node fun hs => (h hs).1).bind fun _ =>
        (W.formatAll rest fun hs => (h hs).2).bind fun _ => .ok _

end

end WritingFaults

theorem isTame_format (node : Node) : IsTame node.format :=
  have W : WritingFaults (fun fault => fault.isOrdinary = true) false := ⟨rfl, fun _ _ h => h⟩
  W.format node nofun

end Node

end TriggerEngine
