/-
**One script below another.**

Two scripts that compile also compile as one, the second below the first: the program is that of the
first one followed by that of the second one, whose nodes stand as many lines further down as the
first script takes.

Nothing of the first script reaches into the second one.  Its brackets are closed, since a tree
closes what it opens, so the line feed between the two ends a statement; the rows of statements of
two trees make up one row; and a tree can be moved down as a whole, with its tokens and with what it
means.

Main definitions:

* `Node.lower` — a node a number of lines further down;
* `Derivation.lower` — a tree a number of lines further down;
* `Phrase.Lowers` — what moving a tree down does to its meaning.

Main results:

* `Derivation.balanced_yield` — a tree closes the brackets that it opens;
* `Derivation.yield_lower`, `Derivation.meaning_lower`, `Derivation.Fits.lower` — a tree that is
  moved down;
* `Derivation.exists_join` — two scripts in a row;
* `compile_join` — **compiling goes on line by line**.
-/

import TriggerEngine.Proofs.Syntax.Correctness
import TriggerEngine.Proofs.Syntax.Outcome
import TriggerEngine.Proofs.Token.Joining

set_option autoImplicit false

namespace TriggerEngine

/-! ### Nodes further down -/

/-- A line a number of lines further down; what is no line stays. -/
def Line.lower (n : Nat) : Line → Line
  | .number line => .number (line + n)
  | .other name => .other name

namespace Node

mutual

/-- A node with all nodes in it a number of lines further down.  A shape that fits no form keeps
what it has for a line. -/
def lower (n : Nat) : Node → Node
  | .literal kind value l tag => .literal kind value (l.lower n) tag
  | .list items l => .list (lowerAll n items) (l.lower n)
  | .ident name l => .ident name (l.lower n)
  | .global key l => .global (key.lower n) (l.lower n)
  | .reference role name args l => .reference role name (lowerAll n args) (l.lower n)
  | .member target name l => .member (target.lower n) name (l.lower n)
  | .index target key l => .index (target.lower n) (key.lower n) (l.lower n)
  | .call callee args l => .call (callee.lower n) (lowerAll n args) (l.lower n)
  | .unary op operand l => .unary op (operand.lower n) (l.lower n)
  | .sign name operand l => .sign name (operand.lower n) (l.lower n)
  | .binary op left right l => .binary op (left.lower n) (right.lower n) (l.lower n)
  | .declare name value l => .declare name (lowerAny n value) (l.lower n)
  | .assign target value l => .assign (target.lower n) (value.lower n) (l.lower n)
  | .expression value l => .expression (value.lower n) (l.lower n)
  | .block body l => .block (lowerAll n body) (l.lower n)
  | .conditional test body otherwise l =>
    .conditional (test.lower n) (body.lower n) (lowerAny n otherwise) (l.lower n)
  | .repetition test body l => .repetition (test.lower n) (body.lower n) (l.lower n)
  | .iteration name source bound body l =>
    .iteration name (source.lower n) (lowerAny n bound) (body.lower n) (l.lower n)
  | .leave l => .leave (l.lower n)
  | .next l => .next (l.lower n)
  | .cooldown seconds l => .cooldown (seconds.lower n) (l.lower n)
  | .torn first shape => .torn first shape
  | .other shape form => .other shape form

/-- Nodes a number of lines further down. -/
def lowerAll (n : Nat) : List Node → List Node
  | [] => []
  | node :: rest => node.lower n :: lowerAll n rest

/-- A node a number of lines further down, if there is one. -/
def lowerAny (n : Nat) : Option Node → Option Node
  | none => none
  | some node => some (node.lower n)

end

theorem lowerAll_eq_map (n : Nat) (nodes : List Node) :
    lowerAll n nodes = nodes.map (lower n) := by
  induction nodes with
  | nil => rfl
  | cons node rest ih => rw [lowerAll, ih, List.map_cons]

theorem lowerAny_eq_map (n : Nat) (node : Option Node) :
    lowerAny n node = node.map (lower n) := by
  cases node <;> rfl

theorem isAssignable_lower (n : Nat) (node : Node) :
    Grammar.isAssignable (node.lower n) = Grammar.isAssignable node := by
  cases node <;> rfl

end Node

/-! ### Trees further down -/

/-- A terminal a number of lines further down. -/
def Terminal.lower {α : Type} {item : α → Item} (n : Nat) (t : Terminal item) :
    Terminal item :=
  { t with line := t.line + n }

/-- A row of tokens, and the same row a number of lines further down. -/
def Lowered (n : Nat) (tokens lowered : List Token) : Prop :=
  lowered = tokens.map (Token.lower n)

namespace Lowered

variable {n : Nat} {α : Type} {item : α → Item} {tokens tokens' lowered lowered' : List Token}

theorem nil : Lowered n [] [] := rfl

theorem cons (t : Terminal item) (h : Lowered n tokens lowered) :
    Lowered n (t.token :: tokens) ((t.lower n).token :: lowered) := by
  rw [Lowered, List.map_cons, h]
  rfl

theorem append (h : Lowered n tokens lowered) (h' : Lowered n tokens' lowered') :
    Lowered n (tokens ++ tokens') (lowered ++ lowered') := by
  rw [Lowered, List.map_append, h, h']

theorem row (ts : List (Terminal item)) :
    Lowered n (ts.map Terminal.token) ((ts.map (Terminal.lower n)).map Terminal.token) := by
  rw [Lowered, List.map_map, List.map_map]
  rfl

end Lowered

namespace Derivation

/-- A tree with all its tokens a number of lines further down. -/
def lower (n : Nat) : {p : Phrase} → Derivation p → Derivation p
  | _, .chain first rest => .chain (first.lower n) (rest.lower n)
  | _, .tailEnd => .tailEnd
  | _, .tailMore op operand rest => .tailMore (op.lower n) (operand.lower n) (rest.lower n)
  | _, .negation word operand => .negation (word.lower n) (operand.lower n)
  | _, .positive inner => .positive (inner.lower n)
  | _, .sign op operand => .sign (op.lower n) (operand.lower n)
  | _, .unsigned inner => .unsigned (inner.lower n)
  | _, .primary factor trailers => .primary (factor.lower n) (trailers.lower n)
  | _, .trailersEnd => .trailersEnd
  | _, .member dot name rest => .member (dot.lower n) (name.lower n) (rest.lower n)
  | _, .index opening key closing rest =>
    .index (opening.lower n) (key.lower n) (closing.lower n) (rest.lower n)
  | _, .call args rest => .call (args.lower n) (rest.lower n)
  | _, .number mark => .number (mark.lower n)
  | _, .text mark => .text (mark.lower n)
  | _, .trueWord word => .trueWord (word.lower n)
  | _, .falseWord word => .falseWord (word.lower n)
  | _, .nullWord word => .nullWord (word.lower n)
  | _, .ident name => .ident (name.lower n)
  | _, .group opening inner closing => .group (opening.lower n) (inner.lower n) (closing.lower n)
  | _, .list opening items closing => .list (opening.lower n) (items.lower n) (closing.lower n)
  | _, .reference role sigil name args =>
    .reference role (sigil.lower n) (name.lower n) (args.lower n)
  | _, .placeholder sigil name => .placeholder (sigil.lower n) (name.lower n)
  | _, .globalName word dot name => .globalName (word.lower n) (dot.lower n) (name.lower n)
  | _, .globalKey word opening key closing =>
    .globalKey (word.lower n) (opening.lower n) (key.lower n) (closing.lower n)
  | _, .noElement => .noElement
  | _, .lastElement head => .lastElement (head.lower n)
  | _, .element head comma rest => .element (head.lower n) (comma.lower n) (rest.lower n)
  | _, .arguments opening items closing =>
    .arguments (opening.lower n) (items.lower n) (closing.lower n)
  | _, .lastBare argument => .lastBare (argument.lower n)
  | _, .bare argument comma rest => .bare (argument.lower n) (comma.lower n) (rest.lower n)
  | _, .declare word name => .declare (word.lower n) (name.lower n)
  | _, .define word name mark value =>
    .define (word.lower n) (name.lower n) (mark.lower n) (value.lower n)
  | _, .assign target mark value => .assign (target.lower n) (mark.lower n) (value.lower n)
  | _, .expression value => .expression (value.lower n)
  | _, .nested body => .nested (body.lower n)
  | _, .conditional word test body alt =>
    .conditional (word.lower n) (test.lower n) (body.lower n) (alt.lower n)
  | _, .repetition word test body => .repetition (word.lower n) (test.lower n) (body.lower n)
  | _, .iteration word name among source body =>
    .iteration (word.lower n) (name.lower n) (among.lower n) (source.lower n) (body.lower n)
  | _, .range word name among source dots bound body =>
    .range (word.lower n) (name.lower n) (among.lower n) (source.lower n) (dots.lower n)
      (bound.lower n) (body.lower n)
  | _, .leave word => .leave (word.lower n)
  | _, .next word => .next (word.lower n)
  | _, .cooldown word what upTo seconds =>
    .cooldown (word.lower n) (what.lower n) (upTo.lower n) (seconds.lower n)
  | _, .longCall word what name => .longCall (word.lower n) (what.lower n) (name.lower n)
  | _, .longCallWith word what name having args =>
    .longCallWith (word.lower n) (what.lower n) (name.lower n) (having.lower n) (args.lower n)
  | _, .shortCall sigil name => .shortCall (sigil.lower n) (name.lower n)
  | _, .shortCallBare sigil name args =>
    .shortCallBare (sigil.lower n) (name.lower n) (args.lower n)
  | _, .shortCallGroup sigil name args =>
    .shortCallGroup (sigil.lower n) (name.lower n) (args.lower n)
  | _, .noStatement => .noStatement
  | _, .lastStatement first => .lastStatement (first.lower n)
  | _, .statement first ending endings rest =>
    .statement (first.lower n) (ending.lower n) (endings.map (Terminal.lower n)) (rest.lower n)
  | _, .block opening endings body closing =>
    .block (opening.lower n) (endings.map (Terminal.lower n)) (body.lower n) (closing.lower n)
  | _, .noClause => .noClause
  | _, .clause lines inner => .clause (lines.map (Terminal.lower n)) (inner.lower n)
  | _, .elif word test body alt => .elif (word.lower n) (test.lower n) (body.lower n) (alt.lower n)
  | _, .elseIf word more test body alt =>
    .elseIf (word.lower n) (more.lower n) (test.lower n) (body.lower n) (alt.lower n)
  | _, .otherwise word body => .otherwise (word.lower n) (body.lower n)
  | _, .script endings body => .script (endings.map (Terminal.lower n)) (body.lower n)

variable {p : Phrase} (n : Nat)

theorem yield_lower (d : Derivation p) : Lowered n d.yield (d.lower n).yield := by
  induction d with
  | tailEnd | trailersEnd | noElement | noStatement | noClause => exact .nil
  | number t | text t | trueWord t | falseWord t | nullWord t | ident t | leave t | next t =>
      exact .cons t .nil
  | placeholder t t' | declare t t' | shortCall t t' => exact .cons t (.cons t' .nil)
  | globalName t t' t'' | longCall t t' t'' => exact .cons t (.cons t' (.cons t'' .nil))
  | positive _ ih | unsigned _ ih | lastElement _ ih | lastBare _ ih | expression _ ih
  | nested _ ih | lastStatement _ ih => exact ih
  | negation t _ ih | sign t _ ih | otherwise t _ ih => exact .cons t ih
  | member t t' _ ih | reference _ t t' _ ih | shortCallBare t t' _ ih
  | shortCallGroup t t' _ ih => exact .cons t (.cons t' ih)
  | define t t' t'' _ ih | cooldown t t' t'' _ ih => exact .cons t (.cons t' (.cons t'' ih))
  | longCallWith t t' t'' u _ ih => exact .cons t (.cons t' (.cons t'' (.cons u ih)))
  | chain _ _ ih ih' | primary _ _ ih ih' | call _ _ ih ih' => exact ih.append ih'
  | tailMore t _ _ ih ih' | repetition t _ _ ih ih' => exact .cons t (ih.append ih')
  | iteration t t' t'' _ _ ih ih' => exact .cons t (.cons t' (.cons t'' (ih.append ih')))
  | element _ t _ ih ih' | bare _ t _ ih ih' | assign _ t _ ih ih' => exact ih.append (.cons t ih')
  | group t _ t' ih | list t _ t' ih | arguments t _ t' ih =>
      exact .cons t (ih.append (.cons t' .nil))
  | index t _ t' _ ih ih' => exact .cons t (ih.append (.cons t' ih'))
  | globalKey t t' _ t'' ih => exact .cons t (.cons t' (ih.append (.cons t'' .nil)))
  | conditional t _ _ _ ih ih' ih'' | elif t _ _ _ ih ih' ih'' =>
      exact .cons t (ih.append (ih'.append ih''))
  | elseIf t t' _ _ _ ih ih' ih'' => exact .cons t (.cons t' (ih.append (ih'.append ih'')))
  | range t t' t'' _ u _ _ ih ih' ih'' =>
      exact .cons t (.cons t' (.cons t'' (ih.append (.cons u (ih'.append ih'')))))
  | statement _ t ts _ ih ih' => exact ih.append (.cons t ((Lowered.row ts).append ih'))
  | block t ts _ t' ih => exact .cons t ((Lowered.row ts).append (ih.append (.cons t' .nil)))
  | clause ts _ ih | script ts _ ih => exact (Lowered.row ts).append ih

theorem max_congr {a a' b b' : Nat} (h : a = a') (h' : b = b') : max a b = max a' b' := by
  rw [h, h']

theorem levels_lower (d : Derivation p) : (d.lower n).levels = d.levels := by
  induction d with
  | chain _ _ ih ih' | tailMore _ _ _ ih ih' | primary _ _ ih ih' | call _ _ ih ih'
  | element _ _ _ ih ih' | bare _ _ _ ih ih' | assign _ _ _ ih ih' | repetition _ _ _ ih ih'
  | iteration _ _ _ _ _ ih ih' | statement _ _ _ _ ih ih' =>
      exact max_congr ih ih'
  | conditional _ _ _ _ ih ih' ih'' | range _ _ _ _ _ _ _ ih ih' ih'' | elif _ _ _ _ ih ih' ih''
  | elseIf _ _ _ _ _ ih ih' ih'' =>
      exact max_congr ih (max_congr ih' ih'')
  | index _ _ _ _ ih ih' => exact max_congr (congrArg (· + 1) ih) ih'
  | negation _ _ ih | sign _ _ ih | group _ _ _ ih | list _ _ _ ih | globalKey _ _ _ _ ih
  | arguments _ _ _ ih | block _ _ _ _ ih => exact congrArg (· + 1) ih
  | positive _ ih | unsigned _ ih | member _ _ _ ih | reference _ _ _ _ ih | lastElement _ ih
  | lastBare _ ih | define _ _ _ _ ih | expression _ ih | nested _ ih | cooldown _ _ _ _ ih
  | longCallWith _ _ _ _ _ ih | shortCallBare _ _ _ ih | shortCallGroup _ _ _ ih
  | lastStatement _ ih | clause _ _ ih | otherwise _ _ ih | script _ _ ih => exact ih
  | _ => rfl

theorem isBare_lower (d : Derivation p) : (d.lower n).isBare = d.isBare := by
  cases d <;> rfl

theorem loopSafe_lower (d : Derivation p) (looped : Bool) :
    (d.lower n).LoopSafe looped ↔ d.LoopSafe looped := by
  induction d generalizing looped with
  | repetition _ _ _ _ ih | iteration _ _ _ _ _ _ ih | range _ _ _ _ _ _ _ _ _ ih => exact ih true
  | nested _ ih | lastStatement _ ih | block _ _ _ _ ih | clause _ _ ih | otherwise _ _ ih
  | script _ _ ih => exact ih looped
  | conditional _ _ _ _ _ ih ih' | statement _ _ _ _ ih ih' | elif _ _ _ _ _ ih ih'
  | elseIf _ _ _ _ _ _ ih ih' => exact and_congr (ih looped) (ih' looped)
  | _ => exact Iff.rfl

end Derivation

/-- What moving a tree a number of lines down does to its meaning: the nodes are moved down, and
what is made of a node moved down is moved down as well. -/
def Phrase.Lowers (n : Nat) : (p : Phrase) → p.Meaning → p.Meaning → Prop
  | .expr _, node, node' => node' = node.lower n
  | .tail _, f, f' => ∀ node, f' (node.lower n) = (f node).lower n
  | .trailers, f, f' => ∀ node, f' (node.lower n) = (f node).lower n
  | .elements _, nodes, nodes' => nodes' = nodes.map (Node.lower n)
  | .arguments, nodes, nodes' => nodes' = nodes.map (Node.lower n)
  | .bare, nodes, nodes' => nodes' = nodes.map (Node.lower n)
  | .statement, node, node' => node' = node.lower n
  | .statements, nodes, nodes' => nodes' = nodes.map (Node.lower n)
  | .block, node, node' => node' = node.lower n
  | .alternative, node, node' => node' = node.map (Node.lower n)
  | .clause, node, node' => node' = node.lower n
  | .script, program, program' => program' = program.map (Node.lower n)

theorem startsWith_lower (n : Nat) (s : Symbol) (tokens : List Token) :
    startsWith s (tokens.map (Token.lower n)) = startsWith s tokens := by
  cases tokens <;> rfl

namespace Derivation

variable {p : Phrase} (n : Nat)

theorem yield_ne_nil (d : Derivation p) (hp : p.starts none = false) : d.yield ≠ [] := by
  intro hnil
  have hstarts := d.starts_yield
  rw [hnil, first_nil, hp] at hstarts
  cases hstarts

theorem startLine_lower (d : Derivation p) (hp : p.starts none = false) :
    (startLine (d.lower n).yield : Line) = (startLine d.yield : Line).lower n := by
  rw [yield_lower]
  cases hyield : d.yield with
  | nil => exact absurd hyield (d.yield_ne_nil hp)
  | cons t tokens => rfl

/-- **A tree that is moved down means the same further down.** -/
theorem meaning_lower (d : Derivation p) : p.Lowers n d.meaning (d.lower n).meaning := by
  -- a tail and a row of trailers mean functions, so their cases are about every node before them
  induction d with
  | tailEnd | trailersEnd => exact fun _ => rfl
  | noElement | noStatement | noClause | number | text | trueWord | falseWord | nullWord | ident
  | placeholder | globalName | declare | leave | next | longCall | shortCall => exact rfl
  | positive _ ih | unsigned _ ih | group _ _ _ ih | arguments _ _ _ ih | nested _ ih
  | otherwise _ _ ih | script _ _ ih => exact ih
  | chain first rest ihf ihr =>
      show (rest.lower n).meaning (first.lower n).meaning = (rest.meaning first.meaning).lower n
      rw [← ihr, ← ihf]
  | primary factor trailers ihf iht =>
      show (trailers.lower n).meaning (factor.lower n).meaning =
        (trailers.meaning factor.meaning).lower n
      rw [← iht, ← ihf]
  | tailMore op operand rest iho ihr =>
      intro node
      show (rest.lower n).meaning (.binary _ _ (operand.lower n).meaning _) =
        (rest.meaning _).lower n
      rw [← ihr, iho]
      rfl
  | member dot name rest ihr =>
      intro node
      show _ = (rest.meaning _).lower n
      rw [← ihr]
      rfl
  | index opening key closing rest ihk ihr =>
      intro node
      show (rest.lower n).meaning (.index _ (key.lower n).meaning _) = (rest.meaning _).lower n
      rw [← ihr, ihk]
      rfl
  | call args rest iha ihr =>
      intro node
      show (rest.lower n).meaning (.call _ (args.lower n).meaning _) = (rest.meaning _).lower n
      rw [← ihr, iha, startLine_lower n args rfl, ← Node.lowerAll_eq_map]
      rfl
  | negation _ _ ih | sign _ _ ih => exact congrArg (Node.unary _ · _) ih
  | globalKey _ _ _ _ ih => exact congrArg (Node.global · _) ih
  | define _ _ _ _ ih => exact congrArg (fun value => Node.declare _ (some value) _) ih
  | cooldown _ _ _ _ ih => exact congrArg (Node.cooldown · _) ih
  | list _ items _ ih =>
      show Node.list (items.lower n).meaning _ = _
      rw [ih, ← Node.lowerAll_eq_map]
      rfl
  | reference _ _ _ args ih =>
      show Node.reference _ _ (args.lower n).meaning _ = _
      rw [ih, ← Node.lowerAll_eq_map]
      rfl
  | longCallWith _ _ _ _ args ih | shortCallBare _ _ args ih | shortCallGroup _ _ args ih =>
      show Grammar.executorCall _ (args.lower n).meaning _ = _
      rw [ih, ← Node.lowerAll_eq_map]
      rfl
  | lastElement _ ih | lastBare _ ih | lastStatement _ ih => exact congrArg (fun node => [node]) ih
  | element head _ rest ih ih' | bare head _ rest ih ih' | statement head _ _ rest ih ih' =>
      show (head.lower n).meaning :: (rest.lower n).meaning = _
      rw [ih, ih']
      rfl
  | assign target _ value iht ihv =>
      show Node.assign (target.lower n).meaning (value.lower n).meaning _ = _
      rw [iht, ihv, startLine_lower n target rfl]
      rfl
  | expression value ih =>
      show Node.expression (value.lower n).meaning _ = _
      rw [ih, startLine_lower n value rfl]
      rfl
  | conditional _ test body alt iht ihb iha | elif _ test body alt iht ihb iha
  | elseIf _ _ test body alt iht ihb iha =>
      show Node.conditional (test.lower n).meaning (body.lower n).meaning (alt.lower n).meaning _ =
        _
      rw [iht, ihb, iha, ← Node.lowerAny_eq_map]
      rfl
  | repetition _ test body iht ihb =>
      show Node.repetition (test.lower n).meaning (body.lower n).meaning _ = _
      rw [iht, ihb]
      rfl
  | iteration _ _ _ source body ihs ihb =>
      show Node.iteration _ (source.lower n).meaning _ (body.lower n).meaning _ = _
      rw [ihs, ihb]
      rfl
  | range _ _ _ source _ bound body ihs ihu ihb =>
      show Node.iteration _ (source.lower n).meaning (some (bound.lower n).meaning)
        (body.lower n).meaning _ = _
      rw [ihs, ihu, ihb]
      rfl
  | block _ _ body _ ih =>
      show Node.block (body.lower n).meaning _ = _
      rw [ih, ← Node.lowerAll_eq_map]
      rfl
  | clause _ _ ih => exact congrArg some ih

theorem proper_lower (d : Derivation p) : (d.lower n).Proper ↔ d.Proper := by
  induction d with
  | chain _ _ ih ih' | tailMore _ _ _ ih ih' | index _ _ _ _ ih ih' | call _ _ ih ih'
  | element _ _ _ ih ih' | bare _ _ _ ih ih' | repetition _ _ _ ih ih'
  | iteration _ _ _ _ _ ih ih' | statement _ _ _ _ ih ih' => exact and_congr ih ih'
  | conditional _ _ _ _ ih ih' ih'' | range _ _ _ _ _ _ _ ih ih' ih'' | elif _ _ _ _ ih ih' ih''
  | elseIf _ _ _ _ _ ih ih' ih'' => exact and_congr ih (and_congr ih' ih'')
  | negation _ _ ih | positive _ ih | sign _ _ ih | unsigned _ ih | member _ _ _ ih
  | group _ _ _ ih | list _ _ _ ih | reference _ _ _ _ ih | globalKey _ _ _ _ ih
  | lastElement _ ih | arguments _ _ _ ih | lastBare _ ih | define _ _ _ _ ih | nested _ ih
  | cooldown _ _ _ _ ih | longCallWith _ _ _ _ _ ih | shortCallGroup _ _ _ ih
  | lastStatement _ ih | block _ _ _ _ ih | clause _ _ ih | otherwise _ _ ih
  | script _ _ ih => exact ih
  | primary factor trailers ih ih' =>
      show (_ ∧ _ ∧ (_ → _)) ↔ _
      rw [isBare_lower, yield_lower, startsWith_lower]
      exact and_congr ih (and_congr ih' Iff.rfl)
  | shortCallBare _ _ args ih =>
      show (_ ∧ startsWith _ (args.lower n).yield = _) ↔ _
      rw [yield_lower, startsWith_lower]
      exact and_congr ih Iff.rfl
  | expression value ih =>
      show (_ ∧ startsWith _ (value.lower n).yield = _) ↔ _
      rw [yield_lower, startsWith_lower]
      exact and_congr ih Iff.rfl
  | assign target mark value iht ihv =>
      have hmeaning : (target.lower n).meaning = target.meaning.lower n := target.meaning_lower n
      show (_ ∧ _ ∧ Grammar.isAssignable (target.lower n).meaning = _ ∧
        startsWith _ (target.lower n).yield = _) ↔ _
      rw [hmeaning, Node.isAssignable_lower, yield_lower, startsWith_lower]
      exact and_congr iht (and_congr ihv Iff.rfl)
  | _ => exact Iff.rfl

theorem Fits.lower {d : Derivation p} {opened : Nat} {looped : Bool} (h : d.Fits opened looped) :
    (d.lower n).Fits opened looped :=
  ⟨(d.proper_lower n).2 h.proper, (d.loopSafe_lower n looped).2 h.safe,
    by rw [levels_lower]; exact h.room⟩

end Derivation

/-! ### Brackets of a tree -/

/-- A row of tokens that closes the brackets that it opens, and no others. -/
def Balanced (tokens : List Token) : Prop :=
  ∀ brackets, bracketsOver brackets tokens = brackets

namespace Balanced

variable {t t' : Token} {tokens tokens' : List Token}

theorem nil : Balanced [] := fun _ => rfl

theorem cons (ht : Balanced [t]) (h : Balanced tokens) : Balanced (t :: tokens) := by
  intro brackets
  rw [bracketsOver_cons, h]
  exact ht brackets

theorem append (h : Balanced tokens) (h' : Balanced tokens') : Balanced (tokens ++ tokens') := by
  intro brackets
  rw [bracketsOver_append, h, h']

theorem enclosed {b : Bracket} (opening : Punct b.opening) (h : Balanced tokens)
    (closing : Punct b.closing) : Balanced (opening.token :: (tokens ++ [closing.token])) := by
  intro brackets
  rw [bracketsOver_cons, bracketsOver_append, h]
  cases b <;> rfl

theorem label (t : Terminal Label.item) : Balanced [t.token] := by
  intro brackets
  obtain ⟨value, line, column⟩ := t
  cases value <;> rfl

theorem operator {r : Tier} (t : Terminal r.item) : Balanced [t.token] := by
  intro brackets
  obtain ⟨⟨op, hop⟩, line, column⟩ := t
  cases op <;> rfl

theorem endings (ts : List (Terminal Ending.item)) : Balanced (ts.map Terminal.token) := by
  induction ts with
  | nil => exact nil
  | cons t ts ih =>
      obtain ⟨value, line, column⟩ := t
      cases value <;> exact ih

theorem lines (ts : List LineEnd) : Balanced (ts.map Terminal.token) := by
  induction ts with
  | nil => exact nil
  | cons t ts ih => exact ih

end Balanced

/-- **A tree closes the brackets that it opens**, and no others. -/
theorem Derivation.balanced_yield {p : Phrase} (d : Derivation p) : Balanced d.yield := by
  induction d with
  | tailEnd | trailersEnd | noElement | noStatement | noClause | number | text | trueWord
  | falseWord | nullWord | ident | leave | next | declare | longCall => exact fun _ => rfl
  | placeholder _ name | shortCall _ name => exact .cons (fun _ => rfl) (.label name)
  | globalName _ _ name => exact .cons (fun _ => rfl) (.cons (fun _ => rfl) (.label name))
  | positive _ ih | unsigned _ ih | lastElement _ ih | lastBare _ ih | expression _ ih
  | nested _ ih | lastStatement _ ih => exact ih
  | negation _ _ ih | otherwise _ _ ih => exact .cons (fun _ => rfl) ih
  | sign op _ ih => exact .cons (.operator op) ih
  | member _ name _ ih | shortCallBare _ name _ ih | shortCallGroup _ name _ ih =>
      exact .cons (fun _ => rfl) (.cons (.label name) ih)
  | reference role _ name _ ih =>
      cases role <;> exact .cons (fun _ => rfl) (.cons (.label name) ih)
  | define _ _ _ _ ih | cooldown _ _ _ _ ih =>
      exact .cons (fun _ => rfl) (.cons (fun _ => rfl) (.cons (fun _ => rfl) ih))
  | longCallWith _ _ _ _ _ ih =>
      exact .cons (fun _ => rfl) (.cons (fun _ => rfl) (.cons (fun _ => rfl)
        (.cons (fun _ => rfl) ih)))
  | chain _ _ ih ih' | primary _ _ ih ih' | call _ _ ih ih' => exact ih.append ih'
  | tailMore op _ _ ih ih' => exact .cons (.operator op) (ih.append ih')
  | repetition _ _ _ ih ih' => exact .cons (fun _ => rfl) (ih.append ih')
  | iteration _ _ _ _ _ ih ih' =>
      exact .cons (fun _ => rfl) (.cons (fun _ => rfl) (.cons (fun _ => rfl) (ih.append ih')))
  | element _ _ _ ih ih' | bare _ _ _ ih ih' | assign _ _ _ ih ih' =>
      exact ih.append (.cons (fun _ => rfl) ih')
  | group opening _ closing ih | arguments opening _ closing ih =>
      exact .enclosed (b := .paren) opening ih closing
  | list opening _ closing ih => exact .enclosed (b := .square) opening ih closing
  | globalKey _ opening _ closing ih =>
      exact .cons (fun _ => rfl) (.enclosed (b := .square) opening ih closing)
  | index opening key closing rest ih ih' =>
      have h := (Balanced.enclosed (b := .square) opening ih closing).append ih'
      rw [List.cons_append, List.append_assoc] at h
      exact h
  | conditional _ _ _ _ ih ih' ih'' | elif _ _ _ _ ih ih' ih'' =>
      exact .cons (fun _ => rfl) (ih.append (ih'.append ih''))
  | elseIf _ _ _ _ _ ih ih' ih'' =>
      exact .cons (fun _ => rfl) (.cons (fun _ => rfl) (ih.append (ih'.append ih'')))
  | range _ _ _ _ _ _ _ ih ih' ih'' =>
      exact .cons (fun _ => rfl) (.cons (fun _ => rfl) (.cons (fun _ => rfl)
        (ih.append (.cons (fun _ => rfl) (ih'.append ih'')))))
  | statement _ ending endings _ ih ih' =>
      exact ih.append ((Balanced.endings (ending :: endings)).append ih')
  | block _ endings _ _ ih =>
      exact .cons (fun _ => rfl) ((Balanced.endings endings).append
        (ih.append (.cons (fun _ => rfl) .nil)))
  | clause lines _ ih => exact (Balanced.lines lines).append ih
  | script endings _ ih => exact (Balanced.endings endings).append ih

/-! ### Two scripts in a row -/

namespace Derivation

theorem exists_append (mark : Terminal Ending.item) (endings₂ : List (Terminal Ending.item))
    (body₂ : Derivation .statements) (h₂ : body₂.Fits 0 false) :
    ∀ (endings : List (Terminal Ending.item)) (body : Derivation .statements), body.Fits 0 false →
      ∃ (endings' : List (Terminal Ending.item)) (body' : Derivation .statements),
        endings'.map Terminal.token ++ body'.yield =
          endings.map Terminal.token ++ body.yield ++
            mark.token :: (endings₂.map Terminal.token ++ body₂.yield) ∧
        body'.meaning = body.meaning ++ body₂.meaning ∧ body'.Fits 0 false
  | endings, .noStatement, _ =>
      ⟨endings ++ mark :: endings₂, body₂, by
        show _ = endings.map Terminal.token ++ [] ++ _
        simp, rfl, h₂⟩
  | endings, .lastStatement first, h =>
      ⟨endings, .statement first mark endings₂ body₂, (List.append_assoc _ _ _).symm, rfl,
        ⟨h.proper, h₂.proper⟩, ⟨h.safe, h₂.safe⟩, Grammar.room_max h.room h₂.room⟩
  | endings, .statement first ending more rest, h => by
      obtain ⟨endings', body', hyield, hmeaning, hfits⟩ :=
        exists_append mark endings₂ body₂ h₂ more rest
          ⟨h.proper.2, h.safe.2, Grammar.room_right h.room⟩
      refine ⟨endings, .statement first ending endings' body', ?_, ?_,
        ⟨h.proper.1, hfits.proper⟩, ⟨h.safe.1, hfits.safe⟩,
        Grammar.room_max (Grammar.room_left h.room) hfits.room⟩
      · show endings.map Terminal.token ++ (first.yield ++ ending.token :: (_ ++ body'.yield)) =
          endings.map Terminal.token ++ (first.yield ++ ending.token :: (_ ++ rest.yield)) ++ _
        rw [hyield]
        simp
      · exact congrArg (first.meaning :: ·) hmeaning

/-- **Two scripts in a row are one.** -/
theorem exists_join (mark : Terminal Ending.item) (d d₂ : Derivation .script)
    (h : d.Fits 0 false) (h₂ : d₂.Fits 0 false) :
    ∃ d' : Derivation .script, d'.yield = d.yield ++ mark.token :: d₂.yield ∧
      d'.meaning = d.meaning ++ d₂.meaning ∧ d'.Fits 0 false := by
  cases d with
  | script endings body =>
      cases d₂ with
      | script endings₂ body₂ =>
          obtain ⟨endings', body', hyield, hmeaning, hfits⟩ :=
            exists_append mark endings₂ body₂ ⟨h₂.proper, h₂.safe, h₂.room⟩ endings body
              ⟨h.proper, h.safe, h.room⟩
          exact ⟨.script endings' body', hyield, hmeaning, hfits.proper, hfits.safe, hfits.room⟩

end Derivation

theorem exists_derivation_of_compile {file source : String} {program : Program}
    (h : compile file source = .ok program) :
    ∃ (d : Derivation .script) (stop : Token), stop.is .eof = true ∧
      tape (some file) source = ⟨d.yield ++ [stop], none⟩ ∧ d.Fits 0 false ∧
      d.meaning = program := by
  have hfault := tape_of_compile h
  have hended := (tapeFrom_ended hfault).1
  rw [← tape] at hended
  obtain ⟨c, hstart, hleft, hc⟩ := Cursor.exists_start file (tape (some file) source).fault hended
  have hread : Parse.program.runFrom c = (.ok program, (Parse.program.runFrom c).2) := by
    refine Prod.ext ?_ rfl
    rw [← h, compile, Tape.program, hstart]
  obtain ⟨d, hmeaning, hfits, stop, hstop, hyield⟩ := Parse.program_sound hc hread
  refine ⟨d, stop, hstop, ?_, hfits, hmeaning⟩
  rw [← hyield, hleft, ← hfault]

theorem compile_of_derivation {file source : String} (d : Derivation .script)
    (hfits : d.Fits 0 false) {stop : Token} (hstop : stop.is .eof = true)
    (h : tape (some file) source = ⟨d.yield ++ [stop], none⟩) :
    compile file source = .ok d.meaning := by
  have hended : Ended (d.yield ++ [stop]) := by
    have hfault : (tape (some file) source).fault = none := by rw [h]
    have hended := (tapeFrom_ended hfault).1
    rwa [← tape, h] at hended
  obtain ⟨c, hstart, hleft, hc⟩ := Cursor.exists_start file none hended
  obtain ⟨c', hread⟩ := Parse.program_complete hc hstop d hfits hleft
  rw [compile, h, Tape.program, hstart]
  exact congrArg Prod.fst hread

/-- **Compiling goes on line by line**: two scripts that compile also compile one below the other,
to the program of the first one and that of the second one, moved down by the lines of the first. -/
theorem compile_join (file fileA fileB : String) {a b : String} {programA programB : Program}
    (ha : compile fileA a = .ok programA) (hb : compile fileB b = .ok programB) :
    compile file (a ++ "\n" ++ b) =
      .ok (programA ++ programB.map (Node.lower (1 + a.toList.count '\n'))) := by
  obtain ⟨dA, stopA, -, htapeA, hfitsA, rfl⟩ := exists_derivation_of_compile ha
  obtain ⟨dB, stopB, hstopB, htapeB, hfitsB, rfl⟩ := exists_derivation_of_compile hb
  generalize hn : 1 + a.toList.count '\n' = n
  obtain ⟨line, column, htape⟩ :=
    tape_join (some file) htapeA htapeB (dA.balanced_yield 0)
  have hlower := hfitsB.lower n
  obtain ⟨d, hyield, hmeaning, hfits⟩ :=
    Derivation.exists_join ⟨.newline, line, column⟩ dA (dB.lower n) hfitsA hlower
  have hdown : (dB.lower n).meaning = dB.meaning.map (Node.lower n) := dB.meaning_lower n
  rw [← hdown, ← hmeaning]
  have hstop : (stopB.lower n).is .eof = true := hstopB
  refine compile_of_derivation d hfits hstop ?_
  rw [htape, hn, hyield, dB.yield_lower n]
  rfl

/-- The brackets of the first script are closed, and its last statement ends with the line, even if
an alternative might follow. -/
theorem compile_join_conditional :
    compile "joined" ("if f(a,\n  b) { }" ++ "\n" ++ "let x = 1") =
      .ok ([.conditional (.call (.ident "f" (.number 1))
            [.ident "a" (.number 1), .ident "b" (.number 2)] (.number 1))
          (.block [] (.number 2)) none (.number 1)] ++
        [.declare "x" (some (.literal .number (.int 1) (.number 1) 9)) (.number 1)].map
          (Node.lower 2)) :=
  compile_join "joined" "first" "second" (by cbv) (by cbv)

end TriggerEngine
