/-
**Operators.**

The operators of expressions, under the names that trees use for them and the signs that scripts
write.

Main definitions:

* `Operator` — the type, with `Operator.name`, `Operator.sign` and `Operator.ofName?`.
-/

set_option autoImplicit false

namespace TriggerEngine

/-- The operators of expressions. -/
inductive Operator where
  | add | sub | mul | div | mod
  | eq | ne | gt | lt | ge | le
  | and | or | not
  deriving DecidableEq, Repr

namespace Operator

/-- All operators. -/
def all : List Operator :=
  [.add, .sub, .mul, .div, .mod, .eq, .ne, .gt, .lt, .ge, .le, .and, .or, .not]

/-- The name of an operator in a tree. -/
def name : Operator → String
  | .add => "add"
  | .sub => "sub"
  | .mul => "mul"
  | .div => "div"
  | .mod => "mod"
  | .eq => "eq"
  | .ne => "ne"
  | .gt => "gt"
  | .lt => "lt"
  | .ge => "ge"
  | .le => "le"
  | .and => "and"
  | .or => "or"
  | .not => "not"

/-- How an operator is written in a script. -/
def sign : Operator → String
  | .add => "+"
  | .sub => "-"
  | .mul => "*"
  | .div => "/"
  | .mod => "%"
  | .eq => "=="
  | .ne => "!="
  | .gt => ">"
  | .lt => "<"
  | .ge => ">="
  | .le => "<="
  | .and => "and"
  | .or => "or"
  | .not => "not"

/-- The operator with a name. -/
def ofName? (name : String) : Option Operator :=
  all.find? fun op => op.name == name

/-- An operator written for inspection. -/
def inspect (op : Operator) : String :=
  "<Op." ++ op.name.map Char.toUpper ++ ": '" ++ op.name ++ "'>"

theorem mem_all (op : Operator) : op ∈ all := by
  cases op <;> decide

end Operator

end TriggerEngine
