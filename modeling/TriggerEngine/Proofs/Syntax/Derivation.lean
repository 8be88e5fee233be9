/-
**Derivations.**

The grammar of scripts, as the type of its derivation trees:

    script     = { end } [ statements ]
    statements = statement [ end { end } [ statements ] ]
    block      = "{" { end } [ statements ] "}"
    statement  = "let" ID [ "=" or ]  |  target "=" or  |  or  |  block
               | "if" or block [ clause ]
               | "while" or block  |  "for" ID "in" or [ ".." or ] block
               | "break"  |  "continue"  |  "set" "cooldown" "to" or
               | "call" "executor" STRING [ "with" or { "," or } ]
               | "#" NAME [ arguments  |  or { "," or } ]
    clause     = { NEWLINE } ( "elif"  |  "else" "if" ) or block [ clause ]
               | { NEWLINE } "else" block
    or         = and { "or" and }
    and        = not { "and" not }
    not        = "not" not  |  comparison
    comparison = sum { ( "==" | "!=" | ">" | "<" | ">=" | "<=" ) sum }
    sum        = product { ( "+" | "-" ) product }
    product    = unary { ( "*" | "/" | "%" ) unary }
    unary      = ( "+" | "-" ) unary  |  primary
    primary    = factor { "." NAME  |  "[" or "]"  |  arguments }
    arguments  = "(" [ or { "," or } [ "," ] ] ")"
    factor     = NUMBER  |  STRING  |  "true"  |  "false"  |  "null"  |  ID  |  "(" or ")"
               | "[" [ or { "," or } [ "," ] ] "]"
               | ( "#" | "@" | "$" ) NAME arguments  |  "$" NAME
               | "global" ( "." NAME  |  "[" or "]" )

An `end` is the end of a line or a semicolon, and a `NAME` is an `ID` or a word of the language.
What the productions leave open is said by `Derivation.Proper`: what can be assigned to, and which
production takes a parenthesis behind a name or a `#` at the start of a statement.

A tree holds its tokens with their places, so what it stands for is read off it: the row of tokens
that it derives, the nodes that it means, how many levels it opens at a time, and whether each
`break` and `continue` in it stands in a loop.

Main definitions:

* `Terminal` — a token that says one of some items;
* `Tier`, `Rank`, `Phrase`, `Derivation` — the grammar;
* `Derivation.yield`, `Derivation.meaning` — the tokens of a tree and the nodes that it means;
* `Derivation.levels`, `Derivation.LoopSafe`, `Derivation.Proper` — conditions on trees, and
  `Derivation.Fits` — all of them.
-/

import Mathlib
import TriggerEngine.Syntax.Grammar

set_option autoImplicit false

namespace TriggerEngine

/-! ### Tokens of a derivation -/

/-- A token that says one of the items of a family. -/
structure Terminal {α : Type} (item : α → Item) where
  /-- Which of the items. -/
  value : α
  /-- The line of the token. -/
  line : Nat
  /-- The column of the token. -/
  column : Nat

/-- The token that a terminal is. -/
def Terminal.token {α : Type} {item : α → Item} (t : Terminal item) : Token :=
  ⟨item t.value, t.line, t.column⟩

/-- A mark of the language. -/
abbrev Punct (s : Symbol) := Terminal fun _ : Unit => Item.symbol s

/-- A word of the language. -/
abbrev Word (k : Keyword) := Terminal fun _ : Unit => Item.keyword k

/-- The end of a line. -/
abbrev LineEnd := Terminal fun _ : Unit => Item.newline

/-- The ways to end a statement. -/
inductive Ending where
  | newline | semi
  deriving DecidableEq, Repr

/-- How the end of a statement is written. -/
def Ending.item : Ending → Item
  | .newline => .newline
  | .semi => .symbol .semi

/-- A name behind a sigil or a dot, where words of the language are names as well. -/
inductive Label where
  | ident (name : String)
  | keyword (k : Keyword)

/-- How a name is written. -/
def Label.item : Label → Item
  | .ident name => .ident name
  | .keyword k => .keyword k

/-- The name itself. -/
def Label.text : Label → String
  | .ident name => name
  | .keyword k => k.text

/-- How a role is marked. -/
def Role.mark : Role → Symbol
  | .executor => .hash
  | .condition => .at
  | .placeholder => .dollar

/-- How an operator is written. -/
def Operator.item : Operator → Item
  | .add => .symbol .plus
  | .sub => .symbol .minus
  | .mul => .symbol .mul
  | .div => .symbol .div
  | .mod => .symbol .mod
  | .eq => .symbol .eq
  | .ne => .symbol .ne
  | .gt => .symbol .gt
  | .lt => .symbol .lt
  | .ge => .symbol .ge
  | .le => .symbol .le
  | .and => .keyword .andWord
  | .or => .keyword .orWord
  | .not => .keyword .notWord

/-! ### The grammar -/

/-- The tiers of operators that stand between their operands, from the loosest to the tightest. -/
inductive Tier where
  | disjunction | conjunction | comparison | sum | product
  deriving DecidableEq, Repr

/-- The operators of a tier. -/
def Tier.operators : Tier → List Operator
  | .disjunction => [.or]
  | .conjunction => [.and]
  | .comparison => [.eq, .ne, .gt, .lt, .ge, .le]
  | .sum => [.add, .sub]
  | .product => [.mul, .div, .mod]

/-- How the operators of a tier are written. -/
def Tier.item (t : Tier) (op : { op : Operator // op ∈ t.operators }) : Item :=
  op.val.item

/-- How tightly an expression holds together. -/
inductive Rank where
  | tier (t : Tier)
  | negation | unary | primary | factor
  deriving DecidableEq, Repr

/-- The rank of the operands of a tier. -/
def Tier.operand : Tier → Rank
  | .disjunction => .tier .conjunction
  | .conjunction => .negation
  | .comparison => .tier .sum
  | .sum => .tier .product
  | .product => .unary

/-- The two sorts of brackets around lists. -/
inductive Bracket where
  | paren | square
  deriving DecidableEq, Repr

/-- The mark that opens a bracket. -/
def Bracket.opening : Bracket → Symbol
  | .paren => .lparen
  | .square => .lbracket

/-- The mark that closes a bracket. -/
def Bracket.closing : Bracket → Symbol
  | .paren => .rparen
  | .square => .rbracket

/-- What a tree can be a derivation of. -/
inductive Phrase where
  /-- An expression of a rank. -/
  | expr (r : Rank)
  /-- Operators of a tier with their right operands. -/
  | tail (t : Tier)
  /-- Members, indexes and calls behind an expression. -/
  | trailers
  /-- Elements inside a bracket. -/
  | elements (b : Bracket)
  /-- Arguments in parentheses. -/
  | arguments
  /-- Arguments without parentheses, at least one. -/
  | bare
  | statement
  | statements
  | block
  /-- What follows the block of a conditional, which may be nothing. -/
  | alternative
  /-- A further case of a conditional. -/
  | clause
  | script

/-- An expression that may stand anywhere. -/
abbrev Phrase.expression : Phrase := .expr (.tier .disjunction)

/-- Derivation trees. -/
inductive Derivation : Phrase → Type where
  -- operators
  | chain {t : Tier} (first : Derivation (.expr t.operand)) (rest : Derivation (.tail t)) :
      Derivation (.expr (.tier t))
  | tailEnd {t : Tier} : Derivation (.tail t)
  | tailMore {t : Tier} (op : Terminal t.item) (operand : Derivation (.expr t.operand))
      (rest : Derivation (.tail t)) : Derivation (.tail t)
  | negation (word : Word .notWord) (operand : Derivation (.expr .negation)) :
      Derivation (.expr .negation)
  | positive (inner : Derivation (.expr (.tier .comparison))) : Derivation (.expr .negation)
  | sign (op : Terminal Tier.sum.item) (operand : Derivation (.expr .unary)) :
      Derivation (.expr .unary)
  | unsigned (inner : Derivation (.expr .primary)) : Derivation (.expr .unary)
  -- what follows a factor
  | primary (factor : Derivation (.expr .factor)) (trailers : Derivation .trailers) :
      Derivation (.expr .primary)
  | trailersEnd : Derivation .trailers
  | member (dot : Punct .dot) (name : Terminal Label.item) (rest : Derivation .trailers) :
      Derivation .trailers
  | index (opening : Punct .lbracket) (key : Derivation .expression) (closing : Punct .rbracket)
      (rest : Derivation .trailers) : Derivation .trailers
  | call (args : Derivation .arguments) (rest : Derivation .trailers) : Derivation .trailers
  -- factors
  | number (mark : Terminal Item.number) : Derivation (.expr .factor)
  | text (mark : Terminal Item.string) : Derivation (.expr .factor)
  | trueWord (word : Word .trueWord) : Derivation (.expr .factor)
  | falseWord (word : Word .falseWord) : Derivation (.expr .factor)
  | nullWord (word : Word .nullWord) : Derivation (.expr .factor)
  | ident (name : Terminal Item.ident) : Derivation (.expr .factor)
  | group (opening : Punct .lparen) (inner : Derivation .expression) (closing : Punct .rparen) :
      Derivation (.expr .factor)
  | list (opening : Punct .lbracket) (items : Derivation (.elements .square))
      (closing : Punct .rbracket) : Derivation (.expr .factor)
  | reference (role : Role) (sigil : Punct role.mark) (name : Terminal Label.item)
      (args : Derivation .arguments) : Derivation (.expr .factor)
  | placeholder (sigil : Punct .dollar) (name : Terminal Label.item) : Derivation (.expr .factor)
  | globalName (word : Word .globalWord) (dot : Punct .dot) (name : Terminal Label.item) :
      Derivation (.expr .factor)
  | globalKey (word : Word .globalWord) (opening : Punct .lbracket) (key : Derivation .expression)
      (closing : Punct .rbracket) : Derivation (.expr .factor)
  -- rows of expressions
  | noElement {b : Bracket} : Derivation (.elements b)
  | lastElement {b : Bracket} (head : Derivation .expression) : Derivation (.elements b)
  | element {b : Bracket} (head : Derivation .expression) (comma : Punct .comma)
      (rest : Derivation (.elements b)) : Derivation (.elements b)
  | arguments (opening : Punct .lparen) (items : Derivation (.elements .paren))
      (closing : Punct .rparen) : Derivation .arguments
  | lastBare (argument : Derivation .expression) : Derivation .bare
  | bare (argument : Derivation .expression) (comma : Punct .comma) (rest : Derivation .bare) :
      Derivation .bare
  -- statements
  | declare (word : Word .letWord) (name : Terminal Item.ident) : Derivation .statement
  | define (word : Word .letWord) (name : Terminal Item.ident) (mark : Punct .assign)
      (value : Derivation .expression) : Derivation .statement
  | assign (target : Derivation .expression) (mark : Punct .assign)
      (value : Derivation .expression) : Derivation .statement
  | expression (value : Derivation .expression) : Derivation .statement
  | nested (body : Derivation .block) : Derivation .statement
  | conditional (word : Word .ifWord) (test : Derivation .expression) (body : Derivation .block)
      (alt : Derivation .alternative) : Derivation .statement
  | repetition (word : Word .whileWord) (test : Derivation .expression)
      (body : Derivation .block) : Derivation .statement
  | iteration (word : Word .forWord) (name : Terminal Item.ident) (among : Word .inWord)
      (source : Derivation .expression) (body : Derivation .block) : Derivation .statement
  | range (word : Word .forWord) (name : Terminal Item.ident) (among : Word .inWord)
      (source : Derivation .expression) (dots : Punct .range) (bound : Derivation .expression)
      (body : Derivation .block) : Derivation .statement
  | leave (word : Word .breakWord) : Derivation .statement
  | next (word : Word .continueWord) : Derivation .statement
  | cooldown (word : Word .setWord) (what : Word .cooldownWord) (upTo : Word .toWord)
      (seconds : Derivation .expression) : Derivation .statement
  | longCall (word : Word .callWord) (what : Word .executorWord) (name : Terminal Item.string) :
      Derivation .statement
  | longCallWith (word : Word .callWord) (what : Word .executorWord)
      (name : Terminal Item.string) (having : Word .withWord) (args : Derivation .bare) :
      Derivation .statement
  | shortCall (sigil : Punct .hash) (name : Terminal Label.item) : Derivation .statement
  | shortCallBare (sigil : Punct .hash) (name : Terminal Label.item) (args : Derivation .bare) :
      Derivation .statement
  | shortCallGroup (sigil : Punct .hash) (name : Terminal Label.item)
      (args : Derivation .arguments) : Derivation .statement
  -- rows of statements
  | noStatement : Derivation .statements
  | lastStatement (first : Derivation .statement) : Derivation .statements
  | statement (first : Derivation .statement) (ending : Terminal Ending.item)
      (endings : List (Terminal Ending.item)) (rest : Derivation .statements) :
      Derivation .statements
  | block (opening : Punct .lbrace) (endings : List (Terminal Ending.item))
      (body : Derivation .statements) (closing : Punct .rbrace) : Derivation .block
  -- conditionals
  | noClause : Derivation .alternative
  | clause (lines : List LineEnd) (inner : Derivation .clause) : Derivation .alternative
  | elif (word : Word .elifWord) (test : Derivation .expression) (body : Derivation .block)
      (alt : Derivation .alternative) : Derivation .clause
  | elseIf (word : Word .elseWord) (more : Word .ifWord) (test : Derivation .expression)
      (body : Derivation .block) (alt : Derivation .alternative) : Derivation .clause
  | otherwise (word : Word .elseWord) (body : Derivation .block) : Derivation .clause
  -- scripts
  | script (endings : List (Terminal Ending.item)) (body : Derivation .statements) :
      Derivation .script

namespace Derivation

/-- The tokens that a tree derives. -/
def yield : {p : Phrase} → Derivation p → List Token
  | _, .chain first rest => first.yield ++ rest.yield
  | _, .tailEnd => []
  | _, .tailMore op operand rest => op.token :: (operand.yield ++ rest.yield)
  | _, .negation word operand => word.token :: operand.yield
  | _, .positive inner => inner.yield
  | _, .sign op operand => op.token :: operand.yield
  | _, .unsigned inner => inner.yield
  | _, .primary factor trailers => factor.yield ++ trailers.yield
  | _, .trailersEnd => []
  | _, .member dot name rest => dot.token :: name.token :: rest.yield
  | _, .index opening key closing rest =>
    opening.token :: (key.yield ++ closing.token :: rest.yield)
  | _, .call args rest => args.yield ++ rest.yield
  | _, .number mark => [mark.token]
  | _, .text mark => [mark.token]
  | _, .trueWord word => [word.token]
  | _, .falseWord word => [word.token]
  | _, .nullWord word => [word.token]
  | _, .ident name => [name.token]
  | _, .group opening inner closing => opening.token :: (inner.yield ++ [closing.token])
  | _, .list opening items closing => opening.token :: (items.yield ++ [closing.token])
  | _, .reference _ sigil name args => sigil.token :: name.token :: args.yield
  | _, .placeholder sigil name => [sigil.token, name.token]
  | _, .globalName word dot name => [word.token, dot.token, name.token]
  | _, .globalKey word opening key closing =>
    word.token :: opening.token :: (key.yield ++ [closing.token])
  | _, .noElement => []
  | _, .lastElement head => head.yield
  | _, .element head comma rest => head.yield ++ comma.token :: rest.yield
  | _, .arguments opening items closing => opening.token :: (items.yield ++ [closing.token])
  | _, .lastBare argument => argument.yield
  | _, .bare argument comma rest => argument.yield ++ comma.token :: rest.yield
  | _, .declare word name => [word.token, name.token]
  | _, .define word name mark value => word.token :: name.token :: mark.token :: value.yield
  | _, .assign target mark value => target.yield ++ mark.token :: value.yield
  | _, .expression value => value.yield
  | _, .nested body => body.yield
  | _, .conditional word test body alt =>
    word.token :: (test.yield ++ (body.yield ++ alt.yield))
  | _, .repetition word test body => word.token :: (test.yield ++ body.yield)
  | _, .iteration word name among source body =>
    word.token :: name.token :: among.token :: (source.yield ++ body.yield)
  | _, .range word name among source dots bound body =>
    word.token :: name.token :: among.token ::
      (source.yield ++ dots.token :: (bound.yield ++ body.yield))
  | _, .leave word => [word.token]
  | _, .next word => [word.token]
  | _, .cooldown word what upTo seconds => word.token :: what.token :: upTo.token :: seconds.yield
  | _, .longCall word what name => [word.token, what.token, name.token]
  | _, .longCallWith word what name having args =>
    word.token :: what.token :: name.token :: having.token :: args.yield
  | _, .shortCall sigil name => [sigil.token, name.token]
  | _, .shortCallBare sigil name args => sigil.token :: name.token :: args.yield
  | _, .shortCallGroup sigil name args => sigil.token :: name.token :: args.yield
  | _, .noStatement => []
  | _, .lastStatement first => first.yield
  | _, .statement first ending endings rest =>
    first.yield ++ ending.token :: (endings.map Terminal.token ++ rest.yield)
  | _, .block opening endings body closing =>
    opening.token :: (endings.map Terminal.token ++ (body.yield ++ [closing.token]))
  | _, .noClause => []
  | _, .clause lines inner => lines.map Terminal.token ++ inner.yield
  | _, .elif word test body alt =>
    word.token :: (test.yield ++ (body.yield ++ alt.yield))
  | _, .elseIf word more test body alt =>
    word.token :: more.token :: (test.yield ++ (body.yield ++ alt.yield))
  | _, .otherwise word body => word.token :: body.yield
  | _, .script endings body => endings.map Terminal.token ++ body.yield

end Derivation

/-- The line on which a row of tokens starts. -/
def startLine (tokens : List Token) : Nat :=
  (tokens.head?.map Token.line).getD 0

/-- What a derivation of a phrase means. -/
abbrev Phrase.Meaning : Phrase → Type
  | .expr _ => Node
  | .tail _ => Node → Node
  | .trailers => Node → Node
  | .elements _ => List Node
  | .arguments => List Node
  | .bare => List Node
  | .statement => Node
  | .statements => List Node
  | .block => Node
  | .alternative => Option Node
  | .clause => Node
  | .script => Program

namespace Derivation

/-- The nodes that a tree means.  Operators of a tier group from the left, and so do members,
indexes and calls; a further case of a conditional is the alternative of the case before it. -/
def meaning : {p : Phrase} → Derivation p → p.Meaning
  | _, .chain first rest => rest.meaning first.meaning
  | _, .tailEnd => fun left => left
  | _, .tailMore op operand rest => fun left =>
    rest.meaning (.binary op.value.val left operand.meaning op.line)
  | _, .negation word operand => .unary .not operand.meaning word.line
  | _, .positive inner => inner.meaning
  | _, .sign op operand => .unary op.value.val operand.meaning op.line
  | _, .unsigned inner => inner.meaning
  | _, .primary factor trailers => trailers.meaning factor.meaning
  | _, .trailersEnd => fun node => node
  | _, .member dot name rest => fun node => rest.meaning (.member node name.value.text dot.line)
  | _, .index opening key _ rest => fun node =>
    rest.meaning (.index node key.meaning opening.line)
  | _, .call args rest => fun node =>
    rest.meaning (.call node args.meaning (startLine args.yield))
  | _, .number mark =>
    .literal .number (Grammar.numberConstant mark.value) mark.line mark.column
  | _, .text mark => .literal .string (.str mark.value) mark.line mark.column
  | _, .trueWord word => .literal .bool (.bool true) word.line word.column
  | _, .falseWord word => .literal .bool (.bool false) word.line word.column
  | _, .nullWord word => .literal .null .null word.line word.column
  | _, .ident name => .ident name.value name.line
  | _, .group _ inner _ => inner.meaning
  | _, .list opening items _ => .list items.meaning opening.line
  | _, .reference role sigil name args =>
    .reference role name.value.text args.meaning sigil.line
  | _, .placeholder sigil name => .reference .placeholder name.value.text [] sigil.line
  | _, .globalName word _ name =>
    .global (.literal .string (.str name.value.text) name.line name.column) word.line
  | _, .globalKey word _ key _ => .global key.meaning word.line
  | _, .noElement => []
  | _, .lastElement head => [head.meaning]
  | _, .element head _ rest => head.meaning :: rest.meaning
  | _, .arguments _ items _ => items.meaning
  | _, .lastBare argument => [argument.meaning]
  | _, .bare argument _ rest => argument.meaning :: rest.meaning
  | _, .declare word name => .declare name.value none word.line
  | _, .define word name _ value => .declare name.value (some value.meaning) word.line
  | _, .assign target _ value => .assign target.meaning value.meaning (startLine target.yield)
  | _, .expression value => .expression value.meaning (startLine value.yield)
  | _, .nested body => body.meaning
  | _, .conditional word test body alt =>
    .conditional test.meaning body.meaning alt.meaning word.line
  | _, .repetition word test body => .repetition test.meaning body.meaning word.line
  | _, .iteration word name _ source body =>
    .iteration name.value source.meaning none body.meaning word.line
  | _, .range word name _ source _ bound body =>
    .iteration name.value source.meaning (some bound.meaning) body.meaning word.line
  | _, .leave word => .leave word.line
  | _, .next word => .next word.line
  | _, .cooldown word _ _ seconds => .cooldown seconds.meaning word.line
  | _, .longCall word _ name => Grammar.executorCall name.value [] word.line
  | _, .longCallWith word _ name _ args =>
    Grammar.executorCall name.value args.meaning word.line
  | _, .shortCall sigil name => Grammar.executorCall name.value.text [] sigil.line
  | _, .shortCallBare sigil name args =>
    Grammar.executorCall name.value.text args.meaning sigil.line
  | _, .shortCallGroup sigil name args =>
    Grammar.executorCall name.value.text args.meaning sigil.line
  | _, .noStatement => []
  | _, .lastStatement first => [first.meaning]
  | _, .statement first _ _ rest => first.meaning :: rest.meaning
  | _, .block opening _ body _ => .block body.meaning opening.line
  | _, .noClause => none
  | _, .clause _ inner => some inner.meaning
  | _, .elif word test body alt =>
    .conditional test.meaning body.meaning alt.meaning word.line
  | _, .elseIf word _ test body alt =>
    .conditional test.meaning body.meaning alt.meaning word.line
  | _, .otherwise _ body => body.meaning
  | _, .script _ body => body.meaning

/-- How many levels a tree has open at a time, at most.  Blocks, brackets of every sort, signs and
`not` open one. -/
def levels : {p : Phrase} → Derivation p → Nat
  | _, .chain first rest => max first.levels rest.levels
  | _, .tailEnd => 0
  | _, .tailMore _ operand rest => max operand.levels rest.levels
  | _, .negation _ operand => operand.levels + 1
  | _, .positive inner => inner.levels
  | _, .sign _ operand => operand.levels + 1
  | _, .unsigned inner => inner.levels
  | _, .primary factor trailers => max factor.levels trailers.levels
  | _, .trailersEnd => 0
  | _, .member _ _ rest => rest.levels
  | _, .index _ key _ rest => max (key.levels + 1) rest.levels
  | _, .call args rest => max args.levels rest.levels
  | _, .number _ => 0
  | _, .text _ => 0
  | _, .trueWord _ => 0
  | _, .falseWord _ => 0
  | _, .nullWord _ => 0
  | _, .ident _ => 0
  | _, .group _ inner _ => inner.levels + 1
  | _, .list _ items _ => items.levels + 1
  | _, .reference _ _ _ args => args.levels
  | _, .placeholder _ _ => 0
  | _, .globalName _ _ _ => 0
  | _, .globalKey _ _ key _ => key.levels + 1
  | _, .noElement => 0
  | _, .lastElement head => head.levels
  | _, .element head _ rest => max head.levels rest.levels
  | _, .arguments _ items _ => items.levels + 1
  | _, .lastBare argument => argument.levels
  | _, .bare argument _ rest => max argument.levels rest.levels
  | _, .declare _ _ => 0
  | _, .define _ _ _ value => value.levels
  | _, .assign target _ value => max target.levels value.levels
  | _, .expression value => value.levels
  | _, .nested body => body.levels
  | _, .conditional _ test body alt =>
    max test.levels (max body.levels alt.levels)
  | _, .repetition _ test body => max test.levels body.levels
  | _, .iteration _ _ _ source body => max source.levels body.levels
  | _, .range _ _ _ source _ bound body => max source.levels (max bound.levels body.levels)
  | _, .leave _ => 0
  | _, .next _ => 0
  | _, .cooldown _ _ _ seconds => seconds.levels
  | _, .longCall _ _ _ => 0
  | _, .longCallWith _ _ _ _ args => args.levels
  | _, .shortCall _ _ => 0
  | _, .shortCallBare _ _ args => args.levels
  | _, .shortCallGroup _ _ args => args.levels
  | _, .noStatement => 0
  | _, .lastStatement first => first.levels
  | _, .statement first _ _ rest => max first.levels rest.levels
  | _, .block _ _ body _ => body.levels + 1
  | _, .noClause => 0
  | _, .clause _ inner => inner.levels
  | _, .elif _ test body alt => max test.levels (max body.levels alt.levels)
  | _, .elseIf _ _ test body alt => max test.levels (max body.levels alt.levels)
  | _, .otherwise _ body => body.levels
  | _, .script _ body => body.levels

/-- Whether `break` and `continue` stand only inside loops, for a tree that stands inside one
itself or does not. -/
def LoopSafe (looped : Bool) : {p : Phrase} → Derivation p → Prop
  | _, .leave _ => looped = true
  | _, .next _ => looped = true
  | _, .repetition _ _ body => body.LoopSafe true
  | _, .iteration _ _ _ _ body => body.LoopSafe true
  | _, .range _ _ _ _ _ _ body => body.LoopSafe true
  | _, .nested body => body.LoopSafe looped
  | _, .conditional _ _ body alt => body.LoopSafe looped ∧ alt.LoopSafe looped
  | _, .lastStatement first => first.LoopSafe looped
  | _, .statement first _ _ rest => first.LoopSafe looped ∧ rest.LoopSafe looped
  | _, .block _ _ body _ => body.LoopSafe looped
  | _, .clause _ inner => inner.LoopSafe looped
  | _, .elif _ _ body alt => body.LoopSafe looped ∧ alt.LoopSafe looped
  | _, .elseIf _ _ _ body alt => body.LoopSafe looped ∧ alt.LoopSafe looped
  | _, .otherwise _ body => body.LoopSafe looped
  | _, .script _ body => body.LoopSafe looped
  | _, _ => True

end Derivation

/-- Whether a row of tokens starts with a mark. -/
def startsWith (s : Symbol) (tokens : List Token) : Bool :=
  tokens.head?.any (·.is (.symbol s))

namespace Derivation

/-- Whether a tree is a placeholder without arguments. -/
def isBare : {p : Phrase} → Derivation p → Bool
  | _, .placeholder _ _ => true
  | _, _ => false

/-- What the productions leave open.  Only variables and globals, in parentheses or not, are
assigned to.  A parenthesis behind the name of a placeholder or of a called executor holds its
arguments, and a statement that starts with `#` is a call and nothing else. -/
def Proper : {p : Phrase} → Derivation p → Prop
  | _, .chain first rest => first.Proper ∧ rest.Proper
  | _, .tailMore _ operand rest => operand.Proper ∧ rest.Proper
  | _, .negation _ operand => operand.Proper
  | _, .positive inner => inner.Proper
  | _, .sign _ operand => operand.Proper
  | _, .unsigned inner => inner.Proper
  | _, .primary factor trailers => factor.Proper ∧ trailers.Proper ∧
    (factor.isBare = true → startsWith .lparen trailers.yield = false)
  | _, .member _ _ rest => rest.Proper
  | _, .index _ key _ rest => key.Proper ∧ rest.Proper
  | _, .call args rest => args.Proper ∧ rest.Proper
  | _, .group _ inner _ => inner.Proper
  | _, .list _ items _ => items.Proper
  | _, .reference _ _ _ args => args.Proper
  | _, .globalKey _ _ key _ => key.Proper
  | _, .lastElement head => head.Proper
  | _, .element head _ rest => head.Proper ∧ rest.Proper
  | _, .arguments _ items _ => items.Proper
  | _, .lastBare argument => argument.Proper
  | _, .bare argument _ rest => argument.Proper ∧ rest.Proper
  | _, .define _ _ _ value => value.Proper
  | _, .assign target _ value => target.Proper ∧ value.Proper ∧
    Grammar.isAssignable target.meaning = true ∧
    startsWith .hash target.yield = false
  | _, .expression value => value.Proper ∧ startsWith .hash value.yield = false
  | _, .nested body => body.Proper
  | _, .conditional _ test body alt => test.Proper ∧ body.Proper ∧ alt.Proper
  | _, .repetition _ test body => test.Proper ∧ body.Proper
  | _, .iteration _ _ _ source body => source.Proper ∧ body.Proper
  | _, .range _ _ _ source _ bound body => source.Proper ∧ bound.Proper ∧ body.Proper
  | _, .cooldown _ _ _ seconds => seconds.Proper
  | _, .longCallWith _ _ _ _ args => args.Proper
  | _, .shortCallBare _ _ args => args.Proper ∧ startsWith .lparen args.yield = false
  | _, .shortCallGroup _ _ args => args.Proper
  | _, .lastStatement first => first.Proper
  | _, .statement first _ _ rest => first.Proper ∧ rest.Proper
  | _, .block _ _ body _ => body.Proper
  | _, .clause _ inner => inner.Proper
  | _, .elif _ test body alt => test.Proper ∧ body.Proper ∧ alt.Proper
  | _, .elseIf _ _ test body alt => test.Proper ∧ body.Proper ∧ alt.Proper
  | _, .otherwise _ body => body.Proper
  | _, .script _ body => body.Proper
  | _, _ => True

/-- What a tree must keep to at a place where `opened` levels are open, inside a loop or not. -/
structure Fits {p : Phrase} (d : Derivation p) (opened : Nat) (looped : Bool) : Prop where
  proper : d.Proper
  safe : d.LoopSafe looped
  room : opened + d.levels ≤ maxNesting

end Derivation

end TriggerEngine
