/-
**Operations from text.**

What an operation is written with has a tree of the grammar, in which every pair of parentheses is a
group and every operator has one operand on each side, and the tree means the operation itself.  So
a script that declares a variable with a written operation as its value compiles to just that: the
same operation, with everything in it on the first line.

Main definitions:

* `Node.onLine` — an operation with everything in it on a line;
* `Node.openLevels` — how many levels an operation has open at a time, at most;
* `Says` — tokens on a line that say some items;
* `Derivable`, `Node.Derives` — rows of tokens with a tree, and with a tree that means an operation.

Main results:

* `Node.IsOperation.derives` — what an operation is written with has a tree that means it;
* `compile_format` — **an operation that is written and read again is the same operation**.
-/

import TriggerEngine.Proofs.Syntax.Concatenation
import TriggerEngine.Proofs.Syntax.Printing

set_option autoImplicit false

namespace TriggerEngine

open Text

namespace Node

mutual

/-- An operation with everything in it on a line. -/
def onLine (line : Line) : Node → Node
  | .literal kind value _ tag => .literal kind value line tag
  | .list items _ => .list (onLineAll line items) line
  | .ident name _ => .ident name line
  | .reference role name args _ => .reference role name (onLineAll line args) line
  | .unary op operand _ => .unary op (operand.onLine line) line
  | .binary op left right _ => .binary op (left.onLine line) (right.onLine line) line
  | node => node

/-- Operations with everything in them on a line. -/
def onLineAll (line : Line) : List Node → List Node
  | [] => []
  | node :: rest => node.onLine line :: onLineAll line rest

end

mutual

/-- How many levels an operation has open at a time, at most: operators, signs, lists and arguments
in parentheses open one. -/
def openLevels : Node → Nat
  | .list items _ => openLevelsAll items + 1
  | .reference role _ args _ =>
    if role = .placeholder ∧ args.isEmpty = true then 0 else openLevelsAll args + 1
  | .unary _ operand _ => operand.openLevels + 1
  | .binary _ left right _ => max left.openLevels right.openLevels + 1
  | _ => 0

/-- How many levels one of some operations has open at a time, at most. -/
def openLevelsAll : List Node → Nat
  | [] => 0
  | node :: rest => max node.openLevels (openLevelsAll rest)

end

end Node

/-! ### Tokens that say something -/

/-- Tokens on a line that say some items. -/
structure Says (line : Nat) (tokens : List Token) (items : List Item) : Prop where
  said : tokens.map Token.item = items
  placed : ∀ token ∈ tokens, token.line = line

namespace Says

variable {line : Nat} {tokens : List Token}

theorem eq_nil (h : Says line tokens []) : tokens = [] :=
  List.map_eq_nil_iff.1 h.said

theorem terminal {α : Type} (item : α → Item) (value : α) {items : List Item}
    (h : Says line tokens (item value :: items)) :
    ∃ (t : Terminal item) (rest : List Token), t.value = value ∧ t.line = line ∧
      tokens = t.token :: rest ∧ Says line rest items := by
  obtain ⟨token, rest, rfl, htoken, hrest⟩ := List.map_eq_cons_iff.1 h.said
  obtain ⟨hline, hlines⟩ := List.forall_mem_cons.1 h.placed
  refine ⟨⟨value, token.line, token.column⟩, rest, rfl, hline, ?_, hrest, hlines⟩
  rw [Terminal.token, ← htoken]

theorem symbol {s : Symbol} {items : List Item} (h : Says line tokens (.symbol s :: items)) :
    ∃ (t : Punct s) (rest : List Token), t.line = line ∧ tokens = t.token :: rest ∧
      Says line rest items := by
  obtain ⟨t, rest, -, ht⟩ := h.terminal (fun _ : Unit => .symbol s) ()
  exact ⟨t, rest, ht⟩

theorem keyword {k : Keyword} {items : List Item} (h : Says line tokens (.keyword k :: items)) :
    ∃ (t : Word k) (rest : List Token), t.line = line ∧ tokens = t.token :: rest ∧
      Says line rest items := by
  obtain ⟨t, rest, -, ht⟩ := h.terminal (fun _ : Unit => .keyword k) ()
  exact ⟨t, rest, ht⟩

theorem split {items items' : List Item} (h : Says line tokens (items ++ items')) :
    ∃ front behind : List Token, tokens = front ++ behind ∧ Says line front items ∧
      Says line behind items' := by
  obtain ⟨front, behind, rfl, hfront, hbehind⟩ := List.map_eq_append_iff.1 h.said
  obtain ⟨hleft, hright⟩ := List.forall_mem_append.1 h.placed
  exact ⟨front, behind, rfl, ⟨hfront, hleft⟩, hbehind, hright⟩

end Says

/-! ### Tokens with a tree -/

/-- A row of tokens has a tree with so many levels and such a meaning. -/
def Derivable (p : Phrase) (tokens : List Token) (levels : Nat) (Means : p.Meaning → Prop) : Prop :=
  ∃ d : Derivation p, d.yield = tokens ∧ d.Proper ∧ d.levels = levels ∧ Means d.meaning

namespace Derivable

variable {tokens : List Token} {n : Nat} {Means : Node → Prop}

theorem tier (t : Tier) (h : Derivable (.expr t.operand) tokens n Means) :
    Derivable (.expr (.tier t)) tokens n Means := by
  obtain ⟨d, hyield, hproper, hlevels, hmeans⟩ := h
  exact ⟨.chain d .tailEnd, by simp [Derivation.yield, hyield], ⟨hproper, trivial⟩,
    by simp [Derivation.levels, hlevels], hmeans⟩

theorem positive (h : Derivable (.expr (.tier .comparison)) tokens n Means) :
    Derivable (.expr .negation) tokens n Means := by
  obtain ⟨d, hyield, hproper, hlevels, hmeans⟩ := h
  exact ⟨.positive d, hyield, hproper, hlevels, hmeans⟩

theorem operand (t : Tier) (h : Derivable (.expr .unary) tokens n Means) :
    Derivable (.expr t.operand) tokens n Means := by
  have hproduct := tier .product h
  have hsum := tier .sum hproduct
  have hcomparison := tier .comparison hsum
  cases t with
  | product => exact h
  | sum => exact hproduct
  | comparison => exact hsum
  | conjunction => exact hcomparison.positive
  | disjunction => exact tier .conjunction hcomparison.positive

theorem loosen (t : Tier) (h : Derivable (.expr (.tier t)) tokens n Means) :
    Derivable .expression tokens n Means := by
  have hcomparison (h : Derivable (.expr (.tier .comparison)) tokens n Means) :
      Derivable .expression tokens n Means :=
    tier .disjunction (tier .conjunction h.positive)
  cases t with
  | disjunction => exact h
  | conjunction => exact tier .disjunction h
  | comparison => exact hcomparison h
  | sum => exact hcomparison (tier .comparison h)
  | product => exact hcomparison (tier .comparison (tier .sum h))

theorem expression (h : Derivable (.expr .unary) tokens n Means) :
    Derivable .expression tokens n Means :=
  loosen .product (tier .product h)

theorem factor (h : Derivable (.expr .factor) tokens n Means) :
    Derivable (.expr .unary) tokens n Means := by
  obtain ⟨d, hyield, hproper, hlevels, hmeans⟩ := h
  exact ⟨.unsigned (.primary d .trailersEnd), by simp [Derivation.yield, hyield],
    ⟨hproper, trivial, fun _ => rfl⟩, by simp [Derivation.levels, hlevels], hmeans⟩

end Derivable

/-! ### Trees of operations -/

/-- The tokens say an operation that is read back as it is, on their line. -/
def Node.Derives (line : Nat) (node : Node) : Prop :=
  ∀ tokens, Says line tokens (itemsOf node.lexemes) →
    Derivable (.expr .unary) tokens node.openLevels
      fun meaning => meaning.toShape = (node.onLine (.number line)).toShape

section Trees

variable {line : Nat} {l : Line}

theorem Node.derives_number {n tag : Nat} (h : (Nat.toDigits 10 n).length ≤ Number.maxDigits) :
    (Node.literal .number (.int n) l tag).Derives line := by
  intro tokens hsaid
  rw [lexemes, Number.intText_natCast, itemsOf_whole h] at hsaid
  obtain ⟨t, rest, ht, rfl, rfl, hrest⟩ := hsaid.terminal Item.number _
  obtain rfl := hrest.eq_nil
  refine .factor ⟨.number t, rfl, trivial, rfl, ?_⟩
  rw [Derivation.meaning, ht]
  rfl

theorem Node.derives_bool {b : Bool} {tag : Nat} :
    (Node.literal .bool (.bool b) l tag).Derives line := by
  intro tokens hsaid
  cases b with
  | true =>
      obtain ⟨t, rest, rfl, rfl, hrest⟩ := hsaid.keyword
      obtain rfl := hrest.eq_nil
      exact .factor ⟨.trueWord t, rfl, trivial, rfl, rfl⟩
  | false =>
      obtain ⟨t, rest, rfl, rfl, hrest⟩ := hsaid.keyword
      obtain rfl := hrest.eq_nil
      exact .factor ⟨.falseWord t, rfl, trivial, rfl, rfl⟩

theorem Node.derives_null {tag : Nat} : (Node.literal .null .null l tag).Derives line := by
  intro tokens hsaid
  obtain ⟨t, rest, rfl, rfl, hrest⟩ := hsaid.keyword
  obtain rfl := hrest.eq_nil
  exact .factor ⟨.nullWord t, rfl, trivial, rfl, rfl⟩

theorem Node.derives_ident {name : String} (h : Keyword.ofText? name = none) :
    (Node.ident (.word name) l).Derives line := by
  intro tokens hsaid
  rw [lexemes, Name.display, itemsOf_name _ h] at hsaid
  obtain ⟨t, rest, ht, rfl, rfl, hrest⟩ := hsaid.terminal Item.ident _
  obtain rfl := hrest.eq_nil
  refine .factor ⟨.ident t, rfl, trivial, rfl, ?_⟩
  rw [Derivation.meaning, ht]
  rfl

theorem Node.derivable_elements {nodes : List Node} (h : ∀ node ∈ nodes, node.Derives line)
    (b : Bracket) {tokens : List Token}
    (hsaid : Says line tokens (itemsOf (commas (lexemesEach nodes)))) :
    Derivable (.elements b) tokens (openLevelsAll nodes)
      fun meaning => toShapes meaning = toShapes (onLineAll (.number line) nodes) := by
  induction nodes generalizing tokens with
  | nil =>
      obtain rfl := hsaid.eq_nil
      exact ⟨.noElement, rfl, trivial, rfl, rfl⟩
  | cons node nodes ih =>
      obtain ⟨hnode, hnodes⟩ := List.forall_mem_cons.1 h
      cases nodes with
      | nil =>
          obtain ⟨d, hyield, hproper, hlevels, hmeans⟩ := (hnode tokens hsaid).expression
          refine ⟨.lastElement d, hyield, hproper, ?_, ?_⟩
          · simp [Derivation.levels, hlevels, openLevelsAll]
          · simp [Derivation.meaning, toShapes, onLineAll, hmeans]
      | cons next nodes =>
          rw [lexemesEach, lexemesEach, commas, itemsOf_append, itemsOf_mark, itemsOf_space,
            ← lexemesEach] at hsaid
          obtain ⟨front, behind, rfl, hfront, hbehind⟩ := hsaid.split
          obtain ⟨comma, rest, -, rfl, hrest⟩ := hbehind.symbol
          obtain ⟨d, hyield, hproper, hlevels, hmeans⟩ := (hnode front hfront).expression
          obtain ⟨ds, hyields, hpropers, hlevelss, hmeanss⟩ := ih hnodes hrest
          refine ⟨.element d comma ds, ?_, ⟨hproper, hpropers⟩, ?_, ?_⟩
          · rw [Derivation.yield, hyield, hyields]
          · rw [Derivation.levels, hlevels, hlevelss]
            rfl
          · rw [onLineAll, toShapes, ← hmeans, ← hmeanss]
            rfl

theorem Node.derivable_between {nodes : List Node} (h : ∀ node ∈ nodes, node.Derives line)
    (b : Bracket) {tokens : List Token}
    (hsaid : Says line tokens
      (itemsOf (.mark b.opening :: (commas (lexemesEach nodes) ++ [.mark b.closing])))) :
    ∃ (opening : Punct b.opening) (d : Derivation (.elements b)) (closing : Punct b.closing),
      tokens = opening.token :: (d.yield ++ [closing.token]) ∧ opening.line = line ∧ d.Proper ∧
        d.levels = openLevelsAll nodes ∧
        toShapes d.meaning = toShapes (onLineAll (.number line) nodes) := by
  rw [itemsOf_mark, itemsOf_append, itemsOf_mark] at hsaid
  obtain ⟨opening, rest, hline, rfl, hrest⟩ := hsaid.symbol
  obtain ⟨front, behind, rfl, hfront, hbehind⟩ := hrest.split
  obtain ⟨closing, rest, -, rfl, hend⟩ := hbehind.symbol
  obtain rfl := hend.eq_nil
  obtain ⟨d, rfl, hproper, hlevels, hmeans⟩ := derivable_elements h b hfront
  exact ⟨opening, d, closing, rfl, hline, hproper, hlevels, hmeans⟩

theorem Node.derives_list {items : List Node} (h : ∀ node ∈ items, node.Derives line) :
    (Node.list items l).Derives line := by
  intro tokens hsaid
  obtain ⟨opening, d, closing, rfl, rfl, hproper, hlevels, hmeans⟩ :=
    derivable_between h .square hsaid
  refine .factor ⟨.list opening d closing, rfl, hproper, ?_, ?_⟩
  · rw [openLevels, ← hlevels]
    rfl
  · rw [onLine, toShape, ← hmeans]
    rfl

theorem Node.derives_reference {role : Role} {name : String} {args : List Node}
    (h : ∀ node ∈ args, node.Derives line) :
    (Node.reference role (.word name) args l).Derives line := by
  intro tokens hsaid
  rw [lexemes, Name.display, itemsOf_mark] at hsaid
  obtain ⟨sigil, rest, rfl, rfl, hrest⟩ := hsaid.symbol
  obtain ⟨label, hlabel, hitems⟩ := exists_label
    (if role = .placeholder ∧ args.isEmpty = true then []
      else .mark .lparen :: (commas (lexemesEach args) ++ [.mark .rparen])) name
  rw [hitems] at hrest
  obtain ⟨t, behind, ht, -, rfl, hbehind⟩ := hrest.terminal Label.item _
  have htext : t.value.text = name := by rw [ht, hlabel]
  by_cases hbare : role = .placeholder ∧ args.isEmpty = true
  · rw [if_pos hbare] at hbehind
    obtain rfl := hbehind.eq_nil
    obtain ⟨rfl, hargs⟩ := hbare
    obtain rfl := List.isEmpty_iff.1 hargs
    refine .factor ⟨.placeholder sigil t, rfl, trivial, rfl, ?_⟩
    rw [onLine, toShape, ← htext]
    rfl
  · rw [if_neg hbare] at hbehind
    obtain ⟨opening, d, closing, rfl, -, hproper, hlevels, hmeans⟩ :=
      derivable_between h .paren hbehind
    refine .factor ⟨.reference role sigil t (.arguments opening d closing), rfl, hproper, ?_, ?_⟩
    · rw [openLevels, if_neg hbare, ← hlevels]
      rfl
    · rw [onLine, toShape, ← hmeans, ← htext]
      rfl

theorem Node.derives_sign {op : Operator} {operand : Node} (hop : op ∈ Tier.sum.operators)
    (h : operand.Derives line) : (Node.unary op operand l).Derives line := by
  intro tokens hsaid
  rw [lexemes, itemsOf_operator] at hsaid
  obtain ⟨t, rest, ht, rfl, rfl, hrest⟩ := hsaid.terminal Tier.sum.item ⟨op, hop⟩
  obtain ⟨d, rfl, hproper, hlevels, hmeans⟩ := h rest hrest
  refine ⟨.sign t d, rfl, hproper, ?_, ?_⟩
  · rw [openLevels, ← hlevels]
    rfl
  · rw [onLine, toShape, ← hmeans]
    simp only [Derivation.meaning, ht, toShape]

theorem Operator.exists_tier {op : Operator} (h : op ≠ .not) : ∃ t : Tier, op ∈ t.operators := by
  cases op with
  | or => exact ⟨.disjunction, by decide⟩
  | and => exact ⟨.conjunction, by decide⟩
  | add | sub => exact ⟨.sum, by decide⟩
  | mul | div | mod => exact ⟨.product, by decide⟩
  | eq | ne | gt | lt | ge | le => exact ⟨.comparison, by decide⟩
  | not => exact absurd rfl h

theorem Node.derives_binary {op : Operator} {left right : Node} (hop : op ≠ .not)
    (hleft : left.Derives line) (hright : right.Derives line) :
    (Node.binary op left right l).Derives line := by
  intro tokens hsaid
  obtain ⟨t, ht⟩ := Operator.exists_tier hop
  rw [lexemes, itemsOf_mark, itemsOf_append, itemsOf_space, itemsOf_operator, itemsOf_space,
    itemsOf_append, itemsOf_mark] at hsaid
  obtain ⟨opening, inside, -, rfl, hinside⟩ := hsaid.symbol
  obtain ⟨front, behind, rfl, hfront, hbehind⟩ := hinside.split
  obtain ⟨sign, rest, hsign, rfl, rfl, hrest⟩ := hbehind.terminal t.item ⟨op, ht⟩
  obtain ⟨back, last, rfl, hback, hlast⟩ := hrest.split
  obtain ⟨closing, none, -, rfl, hnone⟩ := hlast.symbol
  obtain rfl := hnone.eq_nil
  obtain ⟨d, rfl, hd, hdlevels, hdmeans⟩ := (hleft front hfront).operand t
  obtain ⟨e, rfl, he, helevels, hemeans⟩ := (hright back hback).operand t
  -- the parentheses hold one operator, with the two operands in its tier
  have hinner : Derivable (.expr (.tier t)) (d.yield ++ sign.token :: e.yield)
      (max left.openLevels right.openLevels) fun meaning =>
        meaning.toShape = ((Node.binary op left right l).onLine (.number sign.line)).toShape := by
    refine ⟨.chain d (.tailMore sign e .tailEnd), ?_, ⟨hd, he, trivial⟩, ?_, ?_⟩
    · simp [Derivation.yield]
    · simp [Derivation.levels, hdlevels, helevels]
    · rw [onLine, toShape, ← hdmeans, ← hemeans]
      simp only [Derivation.meaning, hsign, toShape]
  obtain ⟨g, hyield, hproper, hlevels, hmeans⟩ := hinner.loosen
  refine .factor ⟨.group opening g closing, ?_, hproper, ?_, hmeans⟩
  · rw [Derivation.yield, hyield]
    simp
  · rw [Derivation.levels, hlevels, openLevels]

end Trees

/-- **What an operation is written with has a tree that means it.** -/
theorem Node.IsOperation.derives {node : Node} (h : node.IsOperation) (line : Nat) :
    node.Derives line := by
  induction h with
  | number hn => exact derives_number hn
  | bool => exact derives_bool
  | null => exact derives_null
  | ident _ hkeyword => exact derives_ident hkeyword
  | list _ ih => exact derives_list ih
  | reference _ _ ih => exact derives_reference ih
  | sign hop _ ih => exact derives_sign hop ih
  | binary hop _ _ ihl ihr => exact derives_binary hop ihl ihr

/-! ### Declarations -/

/-- The lexemes of a declaration in front of its value. -/
def declaring : List Lexeme :=
  [.word .letWord, .space, .name "v", .space, .mark .assign, .space]

theorem isName_v : IsName "v" :=
  ⟨'v', [], rfl, by decide, nofun⟩

theorem isPlain_declaring : ∀ l ∈ declaring, l.IsPlain := by
  have hlet : (Lexeme.word .letWord).IsPlain :=
    Lexeme.name_text .letWord ▸ Lexeme.isPlain_name (Keyword.isName .letWord)
  simp only [declaring, List.forall_mem_cons]
  exact ⟨hlet, Lexeme.isPlain_space, Lexeme.isPlain_name isName_v, Lexeme.isPlain_space,
    Lexeme.isPlain_mark _, Lexeme.isPlain_space, nofun⟩

theorem Printed.tiles_declaring {ls : List Lexeme} (h : Printed ls) :
    Tiles none (textOf (declaring ++ ls)) (declaring ++ ls) := by
  have hvalue (b : Option Char) : Tiles b (' ' :: textOf ls) (.space :: ls) := by
    simpa using h.blank (show Closes [] from rfl) fun _ => .nil
  have hassign (b : Option Char) :
      Tiles b (' ' :: '=' :: ' ' :: textOf ls) (.space :: .mark .assign :: .space :: ls) :=
    Tiles.blank (by simp [Lexeme.mark]) rfl (Tiles.symbol _ (s := .assign) rfl fun b _ => hvalue b)
  have hname (b : Option Char) : Tiles b (' ' :: 'v' :: ' ' :: '=' :: ' ' :: textOf ls)
      (.space :: .name "v" :: .space :: .mark .assign :: .space :: ls) :=
    Tiles.blank (Lexeme.name_ne_blank "v") (Lexeme.isPlain_name isName_v).not_isBad
      (Tiles.named isName_v isBoundary_blank rfl hassign)
  have htiles := Tiles.named (Keyword.isName .letWord) (show isBoundary none = true from rfl) rfl hname
  rw [Lexeme.name_text] at htiles
  exact htiles

theorem Printed.says_declaring {ls : List Lexeme} (h : Printed ls) (file : Option String)
    {source : String} (hsource : source.toList = textOf (declaring ++ ls)) :
    (tape file source).fault = none ∧
      Says 1 (tape file source).tokens (itemsOf (declaring ++ ls) ++ [.eof]) := by
  have hplain : ∀ l ∈ declaring ++ ls, l.IsPlain :=
    List.forall_mem_append.2 ⟨isPlain_declaring, h.plain⟩
  have hlexemes : lexemes source.toList = declaring ++ ls :=
    (tiles_lexemes _).unique (hsource ▸ h.tiles_declaring)
  obtain ⟨hfault, hitems⟩ := said_eq_some_iff.1 (said_plain hplain 0)
  rw [← hlexemes, ← tape] at hfault hitems
  refine ⟨hfault, hitems.trans (by rw [hlexemes]), fun token htoken => ?_⟩
  obtain ⟨front, behind, hsplit, -, hline, -⟩ := isMark_of_mem_tape htoken
  have hfeed : '\n' ∉ front := fun hmem =>
    feedless_textOf hplain (by rw [← hsource, hsplit]; exact List.mem_append_left _ hmem)
  rw [hline, List.count_eq_zero.2 hfeed]

theorem Node.Derives.declare {node : Node} (h : node.Derives 1)
    (hroom : node.openLevels ≤ maxNesting) {tokens : List Token}
    (hsaid : Says 1 tokens (itemsOf (declaring ++ node.lexemes))) :
    ∃ d : Derivation .script, d.yield = tokens ∧ d.Fits 0 false ∧ Program.toShape d.meaning =
      Program.toShape [.declare (.word "v") (some (node.onLine (.number 1))) (.number 1)] := by
  have hitems : itemsOf (declaring ++ node.lexemes) =
      .keyword .letWord :: .ident "v" :: .symbol .assign :: itemsOf node.lexemes := by
    rw [itemsOf_append]
    rfl
  rw [hitems] at hsaid
  obtain ⟨word, behind, hword, rfl, hbehind⟩ := hsaid.keyword
  obtain ⟨name, rest, hname, -, rfl, hrest⟩ := hbehind.terminal Item.ident _
  obtain ⟨mark, value, -, rfl, hvalue⟩ := hrest.symbol
  obtain ⟨d, rfl, hproper, hlevels, hmeans⟩ := (h value hvalue).expression
  have hfits : d.levels ≤ maxNesting := hlevels ▸ hroom
  refine ⟨.script [] (.lastStatement (.define word name mark d)), rfl,
    ⟨hproper, trivial, (Nat.zero_add _).trans_le hfits⟩, ?_⟩
  simp only [Derivation.meaning, Program.toShape, toShapes, toShape, hname, hword]
  rw [hmeans]
  rfl

/-- **An operation that is written and read again is the same operation.**  The value of a variable
that is declared with the text of an operation is the operation, with everything in it on the first
line, if it has no more levels open at a time than a script may. -/
theorem compile_format {node : Node} (h : node.IsOperation) (hroom : node.openLevels ≤ maxNesting)
    (file : String) :
    ∃ text program, node.format = .ok text ∧ compile file ("let v = " ++ text) = .ok program ∧
      program.toShape =
        Program.toShape [.declare (.word "v") (some (node.onLine (.number 1))) (.number 1)] := by
  have hsource : ("let v = " ++ String.ofList (textOf node.lexemes)).toList =
      textOf (declaring ++ node.lexemes) := by
    simp only [String.toList_append, textOf_append, String.toList_ofList]
    rfl
  obtain ⟨hfault, hsaid⟩ := h.printed.says_declaring (some file) hsource
  obtain ⟨tokens, last, htokens, hfront, hlast⟩ := hsaid.split
  obtain ⟨d, rfl, hfits, hmeans⟩ := (h.derives 1).declare hroom hfront
  obtain ⟨stop, rest, -, -, rfl, hrest⟩ :=
    hlast.terminal (fun _ : Unit => Item.eof) ()
  obtain rfl := hrest.eq_nil
  refine ⟨_, d.meaning, h.format, ?_, hmeans⟩
  have htape : tape (some file) ("let v = " ++ String.ofList (textOf node.lexemes)) =
      ⟨d.yield ++ [stop.token], none⟩ := by
    rw [← htokens, ← hfault]
  exact compile_of_derivation d hfits rfl htape

/-- Signs in a row, a placeholder that is named like a word of the language, and a list with an
executor in it. -/
theorem compile_format_mixed :
    ∃ program, compile "mixed" "let v = ((-+12 <= $not) and [x, #f(true)])" = .ok program ∧
      program.toShape = Program.toShape [.declare (.word "v")
        (some (.binary .and
          (.binary .le (.unary .sub (.unary .add (.literal .number (.int 12) (.number 1) 0)
            (.number 1)) (.number 1)) (.reference .placeholder (.word "not") [] (.number 1))
            (.number 1))
          (.list [.ident (.word "x") (.number 1), .reference .executor (.word "f")
            [.literal .bool (.bool true) (.number 1) 0] (.number 1)] (.number 1))
          (.number 1))) (.number 1)] := by
  have hleft : (Node.binary .le (.unary .sub (.unary .add (.literal .number (.int 12) (.number 7) 0)
      (.number 5)) (.number 4)) (.reference .placeholder (.word "not") [] (.number 3))
      (.number 9)).IsOperation :=
    .binary (by decide) (.sign (by decide) (.sign (by decide) (.number (n := 12) (by decide))))
      (.reference (Keyword.isName .notWord) (by simp))
  have hright : (Node.list [.ident (.word "x") (.number 2), .reference .executor (.word "f")
      [.literal .bool (.bool true) (.number 6) 0] (.number 6)] (.number 6)).IsOperation :=
    .list (List.forall_mem_cons.2 ⟨.ident ⟨'x', [], rfl, by decide, by simp⟩ (by decide),
      List.forall_mem_singleton.2 (.reference ⟨'f', [], rfl, by decide, by simp⟩
        (List.forall_mem_singleton.2 .bool))⟩)
  have h : (Node.binary .and _ _ (.number 8)).IsOperation := .binary (by decide) hleft hright
  obtain ⟨text, program, htext, hcompile, hshape⟩ := compile_format h (by decide) "mixed"
  have hprinted : Except.ok text = (.ok "((-+12 <= $not) and [x, #f(true)])" : Except Fault String) := by
    rw [← htext, h.format]
    rfl
  cases hprinted
  exact ⟨program, hcompile, hshape⟩

end TriggerEngine
