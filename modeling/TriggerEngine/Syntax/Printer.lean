/-
**Programs as text.**

Complaints quote the expression they are about.  An expression is written back as a script would
write it, with parentheses around every operation between two operands, so that the text shows how
the expression was understood.  Statements with a body are named only.

A tree from outside may hold what cannot be written: a number that is too long, or something that
is no node.

Main definitions:

* `Node.format` — a node as text.
-/

import TriggerEngine.Syntax.Misfit
import TriggerEngine.Text.Case

set_option autoImplicit false

namespace TriggerEngine

/-- A constant as text; a whole number can be too long for it. -/
def Constant.written : Constant → Except Fault String
  | .int n =>
    match Number.intText? n with
    | some s => .ok s
    | none => .error .tooManyDigits
  | c => .ok c.display

namespace Node

/-- A literal as text. -/
def formatLiteral : LiteralKind → Constant → Except Fault String
  | .number, value => value.written
  | .bool, value => value.written.map fun s => String.ofList (Text.lower s.toList)
  | .string, .str s => .ok (Text.quote s)
  | .string, value => value.written
  | .null, _ => .ok "null"

/-- The name of a statement that is not written out. -/
def formatName (kind : String) : String :=
  "<" ++ kind ++ ">"

/-- What the host says when a sign is none of the operators. -/
def noSign (name : Name) : Fault :=
  .plain .key (match name with
    | .word s => Text.quote s
    | name => name.display)

mutual

/-- A node as text. -/
def format : Node → Except Fault String
  | .literal kind value _ _ => formatLiteral kind value
  | .list items _ => do return "[" ++ ", ".intercalate (← formatAll items) ++ "]"
  | .ident name _ => return name.display
  | .global (.literal .string value _ _) _ => do return "global." ++ (← value.written)
  | .global key _ => do return "global[" ++ (← format key) ++ "]"
  | .reference .placeholder name [] _ => return Role.placeholder.sigil ++ name.display
  | .reference role name args _ => do
    return role.sigil ++ name.display ++ "(" ++ ", ".intercalate (← formatAll args) ++ ")"
  | .member target name _ => do return (← format target) ++ "." ++ name.display
  | .index target key _ => do return (← format target) ++ "[" ++ (← format key) ++ "]"
  | .call callee args _ => do
    return (← format callee) ++ "(" ++ ", ".intercalate (← formatAll args) ++ ")"
  | .unary op operand _ => do
    return op.sign ++ (if op == .not then " " else "") ++ (← format operand)
  | .sign name _ _ => throw (noSign name)
  | .binary op left right _ => do
    return "(" ++ (← format left) ++ " " ++ op.sign ++ " " ++ (← format right) ++ ")"
  | .cooldown seconds _ => do return "set cooldown to " ++ (← format seconds)
  | .declare name none _ => return "let " ++ name.display
  | .declare name (some value) _ => do
    return "let " ++ name.display ++ " = " ++ (← format value)
  | .assign target value _ => do return (← format target) ++ " = " ++ (← format value)
  | .expression value _ => format value
  | .torn first shape => do
    discard (format first)
    throw shape.tornFault
  | .other _ (some form) => format form
  | .other shape none => shape.formatMisfit
  | n => return formatName n.kind

/-- A row of nodes as texts. -/
def formatAll : List Node → Except Fault (List String)
  | [] => return []
  | n :: rest => do return (← format n) :: (← formatAll rest)

end

end Node

end TriggerEngine
