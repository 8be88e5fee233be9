/-
**The grammar.**

Expressions and statements are read by recursive descent.  From the loosest binding to the
tightest: `or`, `and`, `not`, comparisons, sums, products, signs, what follows a primary
expression, and primary expressions.

Every way down into the grammar again opens a level first, and only so many levels may be open.
So the rules are built from the inside out: the rules for the innermost level have nothing below
them, and each further level uses the rules of the level inside it.

Main definitions:

* `Rules` — the entries into the grammar that an outer level uses;
* `Grammar.factor` … `Grammar.expr` — expressions, `Grammar.statement` — statements;
* `Grammar.rules` — the rules when a number of levels may still be opened;
* `Parse.program` — a whole script.
-/

import TriggerEngine.Syntax.Cursor
import TriggerEngine.Syntax.Node

set_option autoImplicit false

namespace TriggerEngine

/-- The entries into the grammar one level further in. -/
structure Rules where
  /-- An expression. -/
  expr : Parse Node
  /-- An operand with its signs. -/
  unary : Parse Node
  /-- An operand of `and`, with its negations. -/
  negation : Parse Node
  /-- A statement. -/
  statement : Parse Node

namespace Grammar

open Parse

/-! ### Lists -/

/-- Elements divided by commas, up to a closing mark or an element without a comma behind it; at
most `fuel` of them.  `acc` holds those read before, the last one first. -/
def elementsF (close : Symbol) (element : Parse Node) : Nat → List Node → Parse (List Node)
  | 0, acc => return acc.reverse
  | fuel + 1, acc => do
    if ← atSymbol close then return acc.reverse
    let node ← element
    if !(← atSymbol .comma) then return (node :: acc).reverse
    advance
    elementsF close element fuel (node :: acc)

/-- Elements between two marks, divided by commas; a comma may stand behind the last one. -/
def elements (opening closing : Symbol) (element : Parse Node) : Parse (List Node) := do
  enter
  discard (eatSymbol opening)
  let nodes ← elementsF closing element ((← get).remaining + 1) []
  discard (eatSymbol closing)
  leave
  return nodes

/-- One expression between two marks. -/
def enclosed (opening closing : Symbol) (inner : Rules) : Parse Node := do
  enter
  discard (eatSymbol opening)
  let node ← inner.expr
  discard (eatSymbol closing)
  leave
  return node

/-- Arguments in parentheses. -/
def arguments (inner : Rules) : Parse (List Node) :=
  elements .lparen .rparen inner.expr

/-! ### Primary expressions -/

/-- What a global is named by. -/
def globalKey (inner : Rules) : Parse Node := do
  let token ← current
  match token.item with
  | .symbol .dot =>
    advance
    let token ← current
    let name ← name
    return .literal .string (.str name) token.line token.column
  | .symbol .lbracket => enclosed .lbracket .rbracket inner
  | _ => expected "'.' or '[' after 'global'"

/-- A number as a constant. -/
def numberConstant : Number → Constant
  | .int n => .int n
  | .float x => .float x

/-- A literal, a variable, a reference or an expression in brackets. -/
def factor (inner : Rules) : Parse Node := do
  let token ← current
  let line : Line := token.line
  match token.item with
  | .number n =>
    advance
    return .literal .number (numberConstant n) line token.column
  | .string s =>
    advance
    return .literal .string (.str s) line token.column
  | .keyword .trueWord =>
    advance
    return .literal .bool (.bool true) line token.column
  | .keyword .falseWord =>
    advance
    return .literal .bool (.bool false) line token.column
  | .keyword .nullWord =>
    advance
    return .literal .null .null line token.column
  | .ident name =>
    advance
    return .ident name line
  | .symbol .lparen => enclosed .lparen .rparen inner
  | .symbol .lbracket => return .list (← elements .lbracket .rbracket inner.expr) line
  | .symbol .hash =>
    advance
    let name ← name
    return .reference .executor name (← arguments inner) line
  | .symbol .at =>
    advance
    let name ← name
    return .reference .condition name (← arguments inner) line
  | .symbol .dollar =>
    advance
    let name ← name
    let args ← if ← atSymbol .lparen then arguments inner else pure []
    return .reference .placeholder name args line
  | .keyword .globalWord =>
    advance
    return .global (← globalKey inner) line
  | _ => expected "an expression"

/-- Members, indexes and calls behind an expression, at most `fuel` of them. -/
def trailersF (inner : Rules) : Nat → Node → Parse Node
  | 0, node => return node
  | fuel + 1, node => do
    let token ← current
    let line : Line := token.line
    match token.item with
    | .symbol .dot =>
      advance
      let name ← name
      trailersF inner fuel (.member node name line)
    | .symbol .lbracket =>
      let key ← enclosed .lbracket .rbracket inner
      trailersF inner fuel (.index node key line)
    | .symbol .lparen =>
      let args ← arguments inner
      trailersF inner fuel (.call node args line)
    | _ => return node

/-- Whether a token continues a primary expression. -/
def isTrailer (token : Token) : Bool :=
  token.is (.symbol .dot) || token.is (.symbol .lbracket) || token.is (.symbol .lparen)

/-- A primary expression with what follows it. -/
def primary (inner : Rules) : Parse Node := do
  let node ← factor inner
  let c ← get
  if isTrailer c.current then trailersF inner (c.remaining + 1) node else return node

/-! ### Operators -/

/-- The sign that an item is. -/
def additive? : Item → Option Operator
  | .symbol .plus => some .add
  | .symbol .minus => some .sub
  | _ => none

/-- The operator between factors that an item is. -/
def multiplicative? : Item → Option Operator
  | .symbol .mul => some .mul
  | .symbol .div => some .div
  | .symbol .mod => some .mod
  | _ => none

/-- The comparison that an item is. -/
def comparison? : Item → Option Operator
  | .symbol .eq => some .eq
  | .symbol .ne => some .ne
  | .symbol .gt => some .gt
  | .symbol .lt => some .lt
  | .symbol .ge => some .ge
  | .symbol .le => some .le
  | _ => none

/-- The conjunction that an item is. -/
def conjunction? : Item → Option Operator
  | .keyword .andWord => some .and
  | _ => none

/-- The disjunction that an item is. -/
def disjunction? : Item → Option Operator
  | .keyword .orWord => some .or
  | _ => none

/-- Operators and operands behind a first operand, grouped from the left, at most `fuel`. -/
def chainF (op? : Item → Option Operator) (operand : Parse Node) : Nat → Node → Parse Node
  | 0, left => return left
  | fuel + 1, left => do
    let token ← current
    match op? token.item with
    | none => return left
    | some op =>
      advance
      let right ← operand
      chainF op? operand fuel (.binary op left right token.line)

/-- Operands with operators between them, grouped from the left. -/
def chain (op? : Item → Option Operator) (operand : Parse Node) : Parse Node := do
  let left ← operand
  let c ← get
  if (op? c.current.item).isSome then chainF op? operand (c.remaining + 1) left else return left

/-- An operand with its signs. -/
def unary (inner : Rules) : Parse Node := do
  let token ← current
  match additive? token.item with
  | some op =>
    enter
    advance
    let operand ← inner.unary
    leave
    return .unary op operand token.line
  | none => primary inner

/-- Products, quotients and remainders. -/
def term (inner : Rules) : Parse Node :=
  chain multiplicative? (unary inner)

/-- Sums and differences. -/
def sum (inner : Rules) : Parse Node :=
  chain additive? (term inner)

/-- Comparisons. -/
def comparison (inner : Rules) : Parse Node :=
  chain comparison? (sum inner)

/-- Negations. -/
def negation (inner : Rules) : Parse Node := do
  let token ← current
  if token.is (.keyword .notWord) then
    enter
    advance
    let operand ← inner.negation
    leave
    return .unary .not operand token.line
  else comparison inner

/-- Conjunctions. -/
def conjunction (inner : Rules) : Parse Node :=
  chain conjunction? (negation inner)

/-- Disjunctions, the loosest expressions. -/
def expr (inner : Rules) : Parse Node :=
  chain disjunction? (conjunction inner)

/-! ### Statements -/

/-- Whether a statement may end before this token. -/
def endsStatement (token : Token) : Bool :=
  isSeparator token || token.is .eof || token.is (.symbol .rbrace)

/-- Requires the end of a statement and passes what does nothing but end it. -/
def endStatement : Parse Unit := do
  if !endsStatement (← current) then expected "end of statement"
  skipSeparators

/-- Statements up to a token that stops them, at most `fuel`; `acc` holds those read before, the
last one first. -/
def statementsF (stops : Token → Bool) (statement : Parse Node) :
    Nat → List Node → Parse (List Node)
  | 0, acc => return acc.reverse
  | fuel + 1, acc => do
    if stops (← current) then return acc.reverse
    let node ← statement
    endStatement
    statementsF stops statement fuel (node :: acc)

/-- Statements up to a token that stops them. -/
def statements (stops : Token → Bool) (statement : Parse Node) : Parse (List Node) := do
  skipSeparators
  statementsF stops statement ((← get).remaining + 1) []

/-- Whether a token stops the statements of a block. -/
def stopsBlock (token : Token) : Bool :=
  token.is (.symbol .rbrace) || token.is .eof

/-- A block. -/
def block (inner : Rules) : Parse Node := do
  enter
  let token ← eatSymbol .lbrace
  let body ← statements stopsBlock inner.statement
  discard (eatSymbol .rbrace)
  leave
  return .block body token.line

/-- A declaration. -/
def declaration (inner : Rules) : Parse Node := do
  let token ← eatKeyword .letWord
  let name ← identifier
  if ← atSymbol .assign then
    advance
    return .declare name (some (← expr inner)) token.line
  else return .declare name none token.line

/-- Passes the ends of lines if a word behind them continues a conditional. -/
def skipToElse : Parse Unit := do
  if ← at? .newline then
    let token ← significant
    if token.is (.keyword .elifWord) || token.is (.keyword .elseWord) then skipLines

/-- Whether the cursor stands on a further case of a conditional. -/
def atCase : Parse Bool := do
  if ← atKeyword .elifWord then return true
  if ← atKeyword .elseWord then return (← peek 1).is (.keyword .ifWord)
  return false

/-- Further cases of a conditional, at most `fuel`: test, block and line of each; `acc` holds
those read before, the last one first. -/
def casesF (inner : Rules) :
    Nat → List (Node × Node × Line) → Parse (List (Node × Node × Line))
  | 0, acc => return acc
  | fuel + 1, acc => do
    if ← atCase then
      let token ← current
      if token.is (.keyword .elseWord) then advance
      advance
      let test ← expr inner
      let body ← block inner
      skipToElse
      casesF inner fuel ((test, body, (token.line : Line)) :: acc)
    else return acc

/-- A conditional.  A further case is the alternative of the case before it. -/
def conditional (inner : Rules) : Parse Node := do
  let token ← eatKeyword .ifWord
  let test ← expr inner
  let body ← block inner
  skipToElse
  let cases ← casesF inner ((← get).remaining + 1) []
  let last ←
    if ← atKeyword .elseWord then
      advance
      pure (some (← block inner))
    else pure none
  let tail := cases.foldl (fun tail (test, body, line) => some (.conditional test body tail line)) last
  return .conditional test body tail token.line

/-- A loop as long as an expression holds. -/
def repetition (inner : Rules) : Parse Node := do
  let token ← eatKeyword .whileWord
  let test ← expr inner
  let body ← inLoop (block inner)
  return .repetition test body token.line

/-- A loop over items or over a range. -/
def iteration (inner : Rules) : Parse Node := do
  let token ← eatKeyword .forWord
  let name ← identifier
  discard (eatKeyword .inWord)
  let source ← expr inner
  let bound ←
    if ← atSymbol .range then
      advance
      pure (some (← expr inner))
    else pure none
  let body ← inLoop (block inner)
  return .iteration name source bound body token.line

/-- A word that leaves a loop or goes on with its next round. -/
def loopControl (word : Keyword) (node : Line → Node) : Parse Node := do
  let token ← current
  if (← get).loops == 0 then complain (.outsideLoop word.text)
  advance
  return node token.line

/-- A cooldown. -/
def cooldown (inner : Rules) : Parse Node := do
  let token ← eatKeyword .setWord
  discard (eatKeyword .cooldownWord)
  discard (eatKeyword .toWord)
  return .cooldown (← expr inner) token.line

/-- Further arguments without parentheses, at most `fuel`. -/
def bareArgumentsF (inner : Rules) : Nat → List Node → Parse (List Node)
  | 0, acc => return acc.reverse
  | fuel + 1, acc => do
    if ← atSymbol .comma then
      advance
      bareArgumentsF inner fuel ((← expr inner) :: acc)
    else return acc.reverse

/-- Arguments without parentheses, at least one. -/
def bareArguments (inner : Rules) : Parse (List Node) := do
  let first ← expr inner
  bareArgumentsF inner ((← get).remaining + 1) [first]

/-- The statement that calls an executor. -/
def executorCall (name : String) (args : List Node) (line : Line) : Node :=
  .expression (.reference .executor name args line) line

/-- The long form of an executor call. -/
def longCall (inner : Rules) : Parse Node := do
  let token ← eatKeyword .callWord
  discard (eatKeyword .executorWord)
  match (← current).item with
  | .string name =>
    advance
    if ← atKeyword .withWord then
      advance
      return executorCall name (← bareArguments inner) token.line
    else return executorCall name [] token.line
  | _ => expected "executor name as a string"

/-- The short form of an executor call: a list in parentheses right behind the name holds all
arguments, else everything up to the end of the statement does. -/
def shortCall (inner : Rules) : Parse Node := do
  let token ← eatSymbol .hash
  let name ← name
  let args ←
    if ← atSymbol .lparen then arguments inner
    else if endsStatement (← current) then pure []
    else bareArguments inner
  return executorCall name args token.line

/-- Whether an expression can be assigned to. -/
def isAssignable : Node → Bool
  | .ident _ _ => true
  | .global _ _ => true
  | _ => false

/-- An assignment or an expression. -/
def assignment (inner : Rules) : Parse Node := do
  let token ← current
  let node ← expr inner
  if ← atSymbol .assign then
    if !isAssignable node then complain (.target node.kind)
    advance
    return .assign node (← expr inner) token.line
  else return .expression node token.line

/-- A statement. -/
def statement (inner : Rules) : Parse Node := do
  match (← current).item with
  | .keyword .letWord => declaration inner
  | .keyword .ifWord => conditional inner
  | .keyword .whileWord => repetition inner
  | .keyword .forWord => iteration inner
  | .keyword .breakWord => loopControl .breakWord .leave
  | .keyword .continueWord => loopControl .continueWord .next
  | .keyword .setWord => cooldown inner
  | .keyword .callWord => longCall inner
  | .symbol .hash => shortCall inner
  | .symbol .lbrace => block inner
  | _ => assignment inner

/-! ### Levels -/

/-- The entries into the grammar around inner rules. -/
def around (inner : Rules) : Rules where
  expr := expr inner
  unary := unary inner
  negation := negation inner
  statement := statement inner

/-- Rules that cannot be entered: opening a level fails before. -/
def closed : Rules where
  expr := complain .nesting
  unary := complain .nesting
  negation := complain .nesting
  statement := complain .nesting

/-- The rules inside a place where this many levels may still be opened. -/
def rules : Nat → Rules
  | 0 => closed
  | levels + 1 => around (rules levels)

end Grammar

namespace Parse

/-- Reads with the rules that fit the levels that are open. -/
def entry {α : Type} (rule : Rules → Parse α) : Parse α := do
  rule (Grammar.rules (← get).levels)

/-- A whole script. -/
def program : Parse Program :=
  entry fun inner => Grammar.statements (·.is .eof) (Grammar.statement inner)

end Parse

/-! ### Scripts -/

/-- Reads a program from a tape. -/
def Tape.program (file : String) (t : Tape) : Except Fault Program :=
  match Cursor.start file t with
  | .error fault => .error fault
  | .ok cursor => (Parse.program.runFrom cursor).1

/-- How a script without a name is called. -/
def unnamed : String := "<script>"

/-- Compiles a script: its tokens are read as the grammar needs them, so a complaint about a token
comes before a fault further on. -/
def compile (file : String) (source : String) : Except Fault Program :=
  (tape (some file) source).program file

/-- Compiles a script after all of its tokens have been read. -/
def compileWhole (file : String) (source : String) : Except Fault (List Token × Program) := do
  let tokens ← (tape (some file) source).whole
  let program ← Tape.program file ⟨tokens, none⟩
  return (tokens, program)

end TriggerEngine
