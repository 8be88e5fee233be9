/-
**Operations as text.**

An operation is written with parentheses around everything that stands between two operands, and
with a blank on both sides of an operator.  Its text falls into the lexemes that it was put together
from: numbers, names and words of the language stand between marks and blanks, so none of them
grows into what is behind it, and no two marks that could be read as one are written side by side.

Main definitions:

* `Node.IsOperation` — operations on numbers, words of the language, names, lists and references;
* `Node.lexemes` — the lexemes that an operation is written with;
* `Printed` — rows of lexemes that are read back where an operation may stand;
* `itemsOf` — what they say.

Main results:

* `Node.IsOperation.format` — an operation is written with its lexemes;
* `Node.IsOperation.printed` — **the text of an operation falls into its lexemes**;
* `said_plain` — such lexemes say the same inside and outside of brackets.
-/

import TriggerEngine.Proofs.Syntax.Derivation
import TriggerEngine.Proofs.Token.Spacing
import TriggerEngine.Syntax.Printer

set_option autoImplicit false

namespace TriggerEngine

open Text

/-! ### Operations -/

/-- Operations: expressions of whole numbers that can be written, truth values, nothing, variables,
lists, references with arguments, signs and operators between two operands. -/
inductive Node.IsOperation : Node → Prop
  | number {n : Nat} {line : Line} {tag : Nat} :
      (Nat.toDigits 10 n).length ≤ Number.maxDigits →
      IsOperation (.literal .number (.int n) line tag)
  | bool {b : Bool} {line : Line} {tag : Nat} : IsOperation (.literal .bool (.bool b) line tag)
  | null {line : Line} {tag : Nat} : IsOperation (.literal .null .null line tag)
  | ident {name : String} {line : Line} : IsName name → Keyword.ofText? name = none →
      IsOperation (.ident (.word name) line)
  | list {items : List Node} {line : Line} : (∀ node ∈ items, IsOperation node) →
      IsOperation (.list items line)
  | reference {role : Role} {name : String} {args : List Node} {line : Line} : IsName name →
      (∀ node ∈ args, IsOperation node) → IsOperation (.reference role (.word name) args line)
  | sign {op : Operator} {operand : Node} {line : Line} : op ∈ Tier.sum.operators →
      IsOperation operand → IsOperation (.unary op operand line)
  | binary {op : Operator} {left right : Node} {line : Line} : op ≠ .not → IsOperation left →
      IsOperation right → IsOperation (.binary op left right line)

/-! ### Their lexemes -/

namespace Lexeme

/-- A mark as a lexeme. -/
def mark (s : Symbol) : Lexeme := ⟨.symbol s, s.text.toList⟩

/-- A word of the language as a lexeme. -/
def word (k : Keyword) : Lexeme := ⟨.keyword k, k.text.toList⟩

/-- A name as a lexeme, which is a word of the language if it is written like one. -/
def name (s : String) : Lexeme := ⟨wordClass none s.toList none, s.toList⟩

/-- One blank as a lexeme. -/
def space : Lexeme := ⟨.blank, [' ']⟩

end Lexeme

/-- An operator as a lexeme. -/
def Operator.lexeme (op : Operator) : Lexeme :=
  match op.item with
  | .symbol s => .mark s
  | .keyword k => .word k
  | _ => .space

theorem Operator.text_lexeme (op : Operator) : op.lexeme.text = op.sign.toList := by
  cases op <;> rfl

/-- Rows of lexemes with commas between them. -/
def commas : List (List Lexeme) → List Lexeme
  | [] => []
  | [row] => row
  | row :: next :: rows => row ++ .mark .comma :: .space :: commas (next :: rows)

namespace Node

mutual

/-- The lexemes that an operation is written with. -/
def lexemes : Node → List Lexeme
  | .literal .number (.int n) _ _ => [⟨.whole, (Number.intText n).toList⟩]
  | .literal .bool (.bool b) _ _ => [.word (if b then .trueWord else .falseWord)]
  | .literal .null _ _ _ => [.word .nullWord]
  | .list items _ => .mark .lbracket :: (commas (lexemesEach items) ++ [.mark .rbracket])
  | .ident name _ => [.name name.display]
  | .reference role name args _ =>
    .mark role.mark :: .name name.display ::
      if role = .placeholder ∧ args.isEmpty = true then []
      else .mark .lparen :: (commas (lexemesEach args) ++ [.mark .rparen])
  | .unary op operand _ => op.lexeme :: operand.lexemes
  | .binary op left right _ =>
    .mark .lparen :: (left.lexemes ++ .space :: op.lexeme :: .space ::
      (right.lexemes ++ [.mark .rparen]))
  | _ => []

/-- The lexemes of each node of a row. -/
def lexemesEach : List Node → List (List Lexeme)
  | [] => []
  | node :: rest => node.lexemes :: lexemesEach rest

end

theorem lexemesEach_eq_map (nodes : List Node) : lexemesEach nodes = nodes.map lexemes := by
  induction nodes with
  | nil => rfl
  | cons node rest ih => rw [lexemesEach, ih, List.map_cons]

end Node

/-! ### Written with their lexemes -/

theorem intercalate_commas (rows : List (List Lexeme)) :
    ", ".intercalate (rows.map fun row => String.ofList (textOf row)) =
      String.ofList (textOf (commas rows)) := by
  rw [← String.toList_inj, String.toList_intercalate, String.toList_ofList, List.map_map]
  induction rows with
  | nil => rfl
  | cons row rows ih =>
      cases rows with
      | nil => simp [commas]
      | cons next rows =>
          rw [List.map_cons] at ih
          rw [List.map_cons, List.map_cons, List.intercalate_cons_cons, ih, commas, textOf_append,
            textOf_cons, textOf_cons]
          simp [Lexeme.mark, Lexeme.space, Symbol.text]

theorem Node.formatAll_eq {nodes : List Node}
    (h : ∀ node ∈ nodes, node.format = .ok (String.ofList (textOf node.lexemes))) :
    formatAll nodes = .ok ((lexemesEach nodes).map fun row => String.ofList (textOf row)) := by
  induction nodes with
  | nil => rfl
  | cons node rest ih =>
      obtain ⟨hnode, hrest⟩ := List.forall_mem_cons.1 h
      rw [formatAll, hnode, ih hrest]
      rfl

theorem Number.intText_natCast (n : Nat) : (intText n).toList = Nat.toDigits 10 n := by
  simp [intText, withSign]

theorem Number.intText?_natCast {n : Nat} (h : (Nat.toDigits 10 n).length ≤ maxDigits) :
    intText? n = some (intText n) :=
  if_pos ((Nat.length_toDigits_le_iff (by decide) (by decide)).1 h)

theorem Constant.written_int {n : Int} {s : String} (h : Number.intText? n = some s) :
    (Constant.int n).written = .ok s := by
  generalize hc : Constant.int n = c
  fun_cases Constant.written c with
  | case1 m text hm =>
      cases hc
      rw [h] at hm
      cases hm
      rfl
  | case2 m hm =>
      cases hc
      rw [h] at hm
      cases hm
  | case3 c hnot => exact absurd hc.symm (hnot n)

theorem ofList_textOf_between (opening closing : Symbol) (ls : List Lexeme) :
    String.ofList (textOf (.mark opening :: (ls ++ [.mark closing]))) =
      opening.text ++ String.ofList (textOf ls) ++ closing.text := by
  rw [← String.toList_inj]
  simp [Lexeme.mark]

theorem Node.IsOperation.format {node : Node} (h : node.IsOperation) :
    node.format = .ok (String.ofList (textOf node.lexemes)) := by
  induction h with
  | number hn =>
      rw [Node.format, formatLiteral, Constant.written_int (Number.intText?_natCast hn), lexemes,
        textOf_cons, textOf_nil, List.append_nil, String.ofList_toList]
  | bool =>
      rename_i b line tag
      cases b <;> rfl
  | null => rfl
  | ident hname hkeyword =>
      rw [Node.format, lexemes, Lexeme.name, textOf_cons, textOf_nil, List.append_nil,
        String.ofList_toList]
      rfl
  | list _ ih =>
      rw [Node.format, formatAll_eq ih, lexemes, ofList_textOf_between, ← intercalate_commas]
      rfl
  | reference hname _ ih =>
      rename_i role name args line _
      have hnamed : ∀ ls, String.ofList (textOf (.mark role.mark :: .name name :: ls)) =
          role.sigil ++ name ++ String.ofList (textOf ls) := by
        intro ls
        rw [← String.toList_inj]
        cases role <;> simp [Lexeme.mark, Lexeme.name, Role.mark, Role.sigil, Symbol.text]
      rw [lexemes, Name.display, hnamed]
      by_cases hbare : role = .placeholder ∧ args.isEmpty = true
      · obtain ⟨rfl, hargs⟩ := hbare
        obtain rfl := List.isEmpty_iff.1 hargs
        rw [if_pos ⟨rfl, rfl⟩, textOf_nil, String.ofList_nil, String.append_empty]
        rfl
      · rw [if_neg hbare, ofList_textOf_between, ← intercalate_commas]
        rw [Node.format, formatAll_eq ih]
        · simp [bind, Except.bind, pure, Except.pure, Name.display, Symbol.text, String.append_assoc]
        · rintro rfl rfl
          exact hbare ⟨rfl, rfl⟩
  | sign hop _ ih =>
      rename_i op operand line _
      have hnot : (op == .not) = false := by
        revert hop
        cases op <;> decide
      rw [Node.format, ih, lexemes, textOf_cons, String.ofList_append, Operator.text_lexeme,
        String.ofList_toList, hnot]
      simp [bind, Except.bind, pure, Except.pure]
  | binary hop _ _ ihl ihr =>
      rw [Node.format, ihl, ihr, lexemes]
      refine congrArg Except.ok ?_
      rw [← String.toList_inj]
      simp [Lexeme.space, Operator.text_lexeme, Symbol.text, Lexeme.mark]

/-! ### Read back -/

/-- A character behind which an operation is complete. -/
def isCloser (c : Char) : Bool :=
  c == ' ' || c == ')' || c == ',' || c == ']'

/-- A text in front of which an operation is complete. -/
def Closes (rest : List Char) : Prop :=
  rest.head?.all isCloser = true

theorem Closes.head_cases {rest : List Char} (h : Closes rest) :
    rest.head? = none ∨ rest.head? = some ' ' ∨ rest.head? = some ')' ∨ rest.head? = some ',' ∨
      rest.head? = some ']' := by
  cases rest with
  | nil => exact .inl rfl
  | cons c rest => exact .inr (by simpa [Closes, isCloser, or_assoc] using h)

theorem Closes.isBoundary {rest : List Char} (h : Closes rest) : isBoundary rest.head? = true := by
  rcases h.head_cases with h | h | h | h | h <;> rw [h] <;> rfl

theorem Closes.endsBefore_whole {rest : List Char} (h : Closes rest) :
    LexemeClass.whole.endsBefore rest = true := by
  rw [LexemeClass.endsBefore]
  rcases h.head_cases with h | h | h | h | h <;> rw [h] <;> rfl

section Tiling

variable {rest : List Char} {more : List Lexeme}

theorem Symbol.isBoundary_last (s : Symbol) : isBoundary s.text.toList.getLast? = true := by
  cases s <;> decide

theorem Tiles.symbol (before : Option Char) {s : Symbol} (hs : rest.head?.any s.growsBy = false)
    (h : ∀ b, isBoundary b = true → Tiles b rest more) :
    Tiles before (s.text.toList ++ rest) (.mark s :: more) := by
  refine Tiles.cons_spelled before (Spelled.symbol s) ?_ (h _ s.isBoundary_last)
  rw [LexemeClass.endsBefore, hs]
  rfl

theorem Tiles.mark (before : Option Char) {s : Symbol} (hs : ∀ c, s.growsBy c = false)
    (h : ∀ b, isBoundary b = true → Tiles b rest more) :
    Tiles before (s.text.toList ++ rest) (.mark s :: more) := by
  refine Tiles.symbol before ?_ h
  cases rest.head? with
  | none => rfl
  | some c => exact hs c

theorem Tiles.blank {before : Option Char} {l : Lexeme} (hblank : l.cls ≠ .blank) (hgood : l.cls.isBad = false)
    (h : Tiles (some ' ') rest (l :: more)) : Tiles before (' ' :: rest) (.space :: l :: more) := by
  obtain ⟨behind, rfl, hstands, -⟩ := h.uncons
  refine Tiles.cons_spelled before (show Spelled .blank [' '] from .blank rfl nofun) ?_ h
  have hhead : (l.text ++ behind).head? = l.text.head? :=
    List.head?_append_of_ne_nil _ hstands.spelled.ne_nil
  show (!(l.text ++ behind).head?.any isSpacing) = true
  rw [hhead, hstands.spelled.head_not_spacing hgood hblank]
  rfl

theorem not_isAsciiWord_of_isBoundary {c : Option Char} (h : isBoundary c = true) :
    c.any isAsciiWord = false := by
  cases c with
  | none => rfl
  | some c =>
      have hword : isWord c = false := by simpa [isBoundary] using h
      refine Bool.eq_false_iff.2 fun hascii => ?_
      simp [isWord_of_isAsciiWord c hascii (toNat_lt_of_isAsciiWord hascii)] at hword

theorem Tiles.named {before : Option Char} {name : String} (hname : IsName name) (hbefore : isBoundary before = true)
    (hafter : isBoundary rest.head? = true) (h : ∀ b, Tiles b rest more) :
    Tiles before (name.toList ++ rest) (.name name :: more) := by
  obtain ⟨c, word, htext, hc, hword⟩ := hname
  have hends : LexemeClass.ident.endsBefore rest = true := by
    rw [LexemeClass.endsBefore, not_isAsciiWord_of_isBoundary hafter]
    rfl
  have hclass : wordClass none name.toList none = wordClass before name.toList rest.head? := by
    rw [wordClass, wordClass, hbefore, hafter]
    rfl
  rw [Lexeme.name, hclass, htext]
  exact Tiles.cons_spelled before (.ident hc hword) hends (h _)

theorem digitValue_of_isDigit {c : Char} (h : c.isDigit = true) :
    digitValue c = some (c.toNat - 48) := by
  have hword : isAsciiWord c = true := by simp [isAsciiWord, Char.isAlphanum, h]
  rw [digitValue, if_pos (toNat_lt_of_isAsciiWord hword), if_pos h]

theorem isDecimal_of_isDigit {c : Char} (h : c.isDigit = true) : isDecimal c = true := by
  rw [isDecimal, digitValue_of_isDigit h]
  rfl

theorem Keyword.isName (k : Keyword) : IsName k.text :=
  k.name

theorem Lexeme.name_text (k : Keyword) : Lexeme.name k.text = .word k := by
  rw [name, wordClass_text]
  rfl

end Tiling

/-! ### Operations are read back -/

/-- A lexeme with a meaning that stays on its line. -/
structure Lexeme.IsPlain (l : Lexeme) : Prop where
  good : l.isBroken = false
  inline : l.cls ≠ .newline
  feedless : '\n' ∉ l.text

theorem Lexeme.isPlain_mark (s : Symbol) : (Lexeme.mark s).IsPlain :=
  ⟨rfl, by simp [mark], by cases s <;> decide⟩

theorem Lexeme.isPlain_space : Lexeme.space.IsPlain :=
  ⟨rfl, by simp [space], by simp [space]⟩

theorem IsName.feedless {name : String} (h : IsName name) : '\n' ∉ name.toList := by
  obtain ⟨c, word, htext, hc, hword⟩ := h
  rw [htext, List.mem_cons, not_or]
  refine ⟨?_, fun hmem => absurd (hword _ hmem) (by decide)⟩
  rintro rfl
  exact absurd hc (by decide)

theorem Lexeme.isPlain_name {name : String} (h : IsName name) : (Lexeme.name name).IsPlain := by
  refine ⟨?_, ?_, h.feedless⟩ <;>
    rcases wordClass_cases none name.toList none with h | ⟨k, h, -⟩ <;>
    simp [Lexeme.name, isBroken, h, LexemeClass.isBad]

theorem Lexeme.name_ne_blank (name : String) : (Lexeme.name name).cls ≠ .blank := by
  rcases wordClass_cases none name.toList none with h | ⟨k, h, -⟩ <;> simp [Lexeme.name, h]

theorem Operator.lexeme_cases (op : Operator) :
    (∃ s, op.lexeme = .mark s) ∨ ∃ k, op.lexeme = .word k := by
  cases op <;> first | exact .inl ⟨_, rfl⟩ | exact .inr ⟨_, rfl⟩

theorem Operator.isPlain_lexeme (op : Operator) : op.lexeme.IsPlain := by
  cases op <;> exact ⟨rfl, by decide, by decide⟩

theorem Operator.lexeme_ne_blank (op : Operator) : op.lexeme.cls ≠ .blank := by
  cases op <;> decide

theorem Lexeme.IsPlain.not_isBad {l : Lexeme} (h : l.IsPlain) : l.cls.isBad = false :=
  (Bool.or_eq_false_iff.1 h.good).1

/-- Rows of lexemes that are read back where an operation may stand: behind a character that is part
of no word, and in front of one behind which an operation is complete. -/
structure Printed (ls : List Lexeme) : Prop where
  /-- They start with something, and not with a blank. -/
  starts : ∃ l more, ls = l :: more ∧ l.cls ≠ .blank
  /-- They have a meaning, and none ends the line. -/
  plain : ∀ l ∈ ls, l.IsPlain
  /-- They tile their text. -/
  tiles : ∀ {before : Option Char} {rest : List Char} {more : List Lexeme},
    isBoundary before = true → Closes rest → (∀ b, Tiles b rest more) →
      Tiles before (textOf ls ++ rest) (ls ++ more)

theorem Printed.blank {ls : List Lexeme} (h : Printed ls) {before : Option Char}
    {rest : List Char} {more : List Lexeme} (hrest : Closes rest) (hmore : ∀ b, Tiles b rest more) :
    Tiles before (' ' :: (textOf ls ++ rest)) (.space :: (ls ++ more)) := by
  obtain ⟨l, ls', rfl, hblank⟩ := h.starts
  exact Tiles.blank hblank (h.plain l (by simp)).not_isBad (h.tiles isBoundary_blank hrest hmore)

section Commas

variable {rows : List (List Lexeme)} (h : ∀ row ∈ rows, Printed row)

include h

theorem isPlain_commas : ∀ l ∈ commas rows, l.IsPlain := by
  induction rows with
  | nil => nofun
  | cons row rows ih =>
      obtain ⟨hrow, hrows⟩ := List.forall_mem_cons.1 h
      cases rows with
      | nil => exact hrow.plain
      | cons next rows =>
          rw [commas, List.forall_mem_append, List.forall_mem_cons, List.forall_mem_cons]
          exact ⟨hrow.plain, Lexeme.isPlain_mark _, Lexeme.isPlain_space, ih hrows⟩

theorem tiles_commas {before : Option Char} {rest : List Char} {more : List Lexeme}
    (hbefore : isBoundary before = true) (hrest : Closes rest) (hmore : ∀ b, Tiles b rest more) :
    Tiles before (textOf (commas rows) ++ rest) (commas rows ++ more) := by
  induction rows generalizing before with
  | nil => exact hmore before
  | cons row rows ih =>
      obtain ⟨hrow, hrows⟩ := List.forall_mem_cons.1 h
      cases rows with
      | nil => exact hrow.tiles hbefore hrest hmore
      | cons next rows =>
          -- the comma and the blank stand behind the first row, whatever is in front of them
          have hnext : ∀ b, Tiles b (',' :: ' ' :: (textOf (commas (next :: rows)) ++ rest))
              (.mark .comma :: .space :: (commas (next :: rows) ++ more)) := by
            intro b
            refine Tiles.mark b (s := .comma) (fun _ => rfl) fun b' _ => ?_
            obtain ⟨l, ls, hl, hblank⟩ : ∃ l ls, commas (next :: rows) = l :: ls ∧ l.cls ≠ .blank := by
              obtain ⟨l, ls, rfl, hblank⟩ := (hrows next (by simp)).starts
              cases rows with
              | nil => exact ⟨l, ls, rfl, hblank⟩
              | cons row rows => exact ⟨l, _, rfl, hblank⟩
            have hgood := (isPlain_commas hrows l (by simp [hl])).not_isBad
            have htiles := ih hrows isBoundary_blank
            rw [hl] at htiles ⊢
            exact Tiles.blank hblank hgood htiles
          have htiles := hrow.tiles hbefore (show Closes (',' :: _) from rfl) hnext
          rw [commas]
          simpa [Lexeme.mark, Lexeme.space, Symbol.text] using htiles

end Commas

namespace Printed

theorem named {name : String} (hname : IsName name) : Printed [.name name] where
  starts := ⟨_, [], rfl, Lexeme.name_ne_blank name⟩
  plain := List.forall_mem_singleton.2 (Lexeme.isPlain_name hname)
  tiles hbefore hrest hmore := by
    simpa [Lexeme.name] using Tiles.named hname hbefore hrest.isBoundary hmore

theorem word (k : Keyword) : Printed [.word k] := by
  rw [← Lexeme.name_text]
  exact named k.isName

theorem number {n : Nat} (h : (Nat.toDigits 10 n).length ≤ Number.maxDigits) :
    Printed [⟨.whole, Nat.toDigits 10 n⟩] where
  starts := ⟨_, [], rfl, by simp⟩
  plain := List.forall_mem_singleton.2
    ⟨by simp [Lexeme.isBroken, LexemeClass.isBad, h], by simp, fun hfeed =>
      absurd (Nat.isDigit_of_mem_toDigits (by decide) (by decide) hfeed) (by decide)⟩
  tiles {before _ _} _ hrest hmore := by
    obtain ⟨c, digits, hdigits⟩ := List.exists_cons_of_ne_nil (Nat.toDigits_ne_nil (b := 10) (n := n))
    have hspelled : Spelled .whole (Nat.toDigits 10 n) := by
      have hall : ∀ d ∈ Nat.toDigits 10 n, isDecimal d = true := fun d hd =>
        isDecimal_of_isDigit (Nat.isDigit_of_mem_toDigits (by decide) (by decide) hd)
      rw [hdigits] at hall ⊢
      exact .whole (hall c (by simp)) fun d hd => hall d (by simp [hd])
    have htiles := Tiles.cons_spelled before hspelled hrest.endsBefore_whole (hmore _)
    simpa [LexemeClass.within] using htiles

theorem tiles_between {b : Bracket} {rows : List (List Lexeme)} (h : ∀ row ∈ rows, Printed row)
    (before : Option Char) {rest : List Char} {more : List Lexeme} (hmore : ∀ b, Tiles b rest more) :
    Tiles before (textOf (.mark b.opening :: (commas rows ++ [.mark b.closing])) ++ rest)
      (.mark b.opening :: (commas rows ++ [.mark b.closing]) ++ more) := by
  have hlast : ∀ b', Tiles b' (b.closing.text.toList ++ rest) (.mark b.closing :: more) := fun b' =>
    Tiles.mark b' (by cases b <;> exact fun _ => rfl) fun b' _ => hmore b'
  have hcloses : Closes (b.closing.text.toList ++ rest) := by cases b <;> rfl
  have htiles := Tiles.mark before (s := b.opening) (by cases b <;> exact fun _ => rfl)
    fun b' hb' => tiles_commas h hb' hcloses hlast
  simpa [Lexeme.mark] using htiles

theorem isPlain_between {b : Bracket} {rows : List (List Lexeme)}
    (h : ∀ row ∈ rows, Printed row) :
    ∀ l ∈ Lexeme.mark b.opening :: (commas rows ++ [.mark b.closing]), l.IsPlain := by
  rw [List.forall_mem_cons, List.forall_mem_append, List.forall_mem_singleton]
  exact ⟨Lexeme.isPlain_mark _, isPlain_commas h, Lexeme.isPlain_mark _⟩

theorem between (b : Bracket) {rows : List (List Lexeme)} (h : ∀ row ∈ rows, Printed row) :
    Printed (.mark b.opening :: (commas rows ++ [.mark b.closing])) where
  starts := ⟨_, _, rfl, by simp [Lexeme.mark]⟩
  plain := isPlain_between h
  tiles _ _ hmore := tiles_between h _ hmore

theorem reference (role : Role) {name : String} (hname : IsName name) {tail : List Lexeme}
    (hplain : ∀ l ∈ tail, l.IsPlain)
    (htail : ∀ {rest : List Char} {more : List Lexeme}, Closes rest → (∀ b, Tiles b rest more) →
      isBoundary (textOf tail ++ rest).head? = true ∧
        ∀ b, Tiles b (textOf tail ++ rest) (tail ++ more)) :
    Printed (.mark role.mark :: .name name :: tail) where
  starts := ⟨_, _, rfl, by simp [Lexeme.mark]⟩
  plain := List.forall_mem_cons.2 ⟨Lexeme.isPlain_mark _, List.forall_mem_cons.2
    ⟨Lexeme.isPlain_name hname, hplain⟩⟩
  tiles {before} {_} {_} _ hrest hmore := by
    obtain ⟨hhead, htiles⟩ := htail hrest hmore
    have htiles := Tiles.mark before (s := role.mark)
      (by cases role <;> exact fun _ => rfl) fun b hb => Tiles.named hname hb hhead htiles
    simpa [Lexeme.mark, Lexeme.name] using htiles

theorem sign {op : Operator} (hop : op ∈ Tier.sum.operators) {ls : List Lexeme} (h : Printed ls) :
    Printed (op.lexeme :: ls) := by
  obtain ⟨s, hs, hgrows⟩ : ∃ s, op.lexeme = .mark s ∧ ∀ c, s.growsBy c = false := by
    have hcases : op = .add ∨ op = .sub := by simpa [Tier.operators] using hop
    rcases hcases with rfl | rfl
    · exact ⟨.plus, rfl, fun _ => rfl⟩
    · exact ⟨.minus, rfl, fun _ => rfl⟩
  rw [hs]
  refine ⟨⟨_, _, rfl, by simp [Lexeme.mark]⟩,
    List.forall_mem_cons.2 ⟨Lexeme.isPlain_mark _, h.plain⟩, ?_⟩
  intro before rest more _ hrest hmore
  have htiles := Tiles.mark before hgrows fun b hb => h.tiles hb hrest hmore
  simpa [Lexeme.mark] using htiles

theorem tiles_operator {op : Operator} {before : Option Char} {rest : List Char}
    {more : List Lexeme} (hbefore : isBoundary before = true) (h : ∀ b, Tiles b (' ' :: rest) more) :
    Tiles before (op.lexeme.text ++ ' ' :: rest) (op.lexeme :: more) := by
  rcases op.lexeme_cases with ⟨s, hs⟩ | ⟨k, hk⟩
  · rw [hs]
    refine Tiles.symbol before ?_ fun b _ => h b
    cases s <;> rfl
  · rw [hk, ← Lexeme.name_text]
    exact Tiles.named k.isName hbefore rfl h

theorem binary (op : Operator) {ls ms : List Lexeme} (hl : Printed ls) (hm : Printed ms) :
    Printed (.mark .lparen :: (ls ++ .space :: op.lexeme :: .space :: (ms ++ [.mark .rparen]))) where
  starts := ⟨_, _, rfl, by simp [Lexeme.mark]⟩
  plain := by
    simp only [List.forall_mem_cons, List.forall_mem_append]
    exact ⟨Lexeme.isPlain_mark _, hl.plain, Lexeme.isPlain_space, op.isPlain_lexeme,
      Lexeme.isPlain_space, hm.plain, Lexeme.isPlain_mark _, nofun⟩
  tiles {before rest more} _ hrest hmore := by
    have hright : ∀ b, Tiles b (' ' :: (textOf ms ++ ')' :: rest))
        (.space :: (ms ++ .mark .rparen :: more)) := fun b =>
      hm.blank rfl fun b => Tiles.mark b (s := .rparen) (fun _ => rfl) fun b _ => hmore b
    have hmiddle : ∀ b, Tiles b (' ' :: (op.lexeme.text ++ ' ' :: (textOf ms ++ ')' :: rest)))
        (.space :: op.lexeme :: .space :: (ms ++ .mark .rparen :: more)) := fun b =>
      Tiles.blank op.lexeme_ne_blank op.isPlain_lexeme.not_isBad
        (tiles_operator isBoundary_blank hright)
    have htiles := Tiles.mark before (s := .lparen) (fun _ => rfl) fun b hb =>
      hl.tiles hb (show Closes (' ' :: _) from rfl) hmiddle
    simpa [Lexeme.mark, Lexeme.space, Symbol.text] using htiles

end Printed

/-- **The text of an operation falls into its lexemes**, wherever an operation may stand. -/
theorem Node.IsOperation.printed {node : Node} (h : node.IsOperation) : Printed node.lexemes := by
  induction h with
  | number hn =>
      rw [lexemes, Number.intText_natCast]
      exact .number hn
  | bool => exact .word _
  | null => exact .word _
  | ident hname hkeyword => exact .named hname
  | list _ ih =>
      rw [lexemes, lexemesEach_eq_map]
      exact .between .square (List.forall_mem_map.2 ih)
  | reference hname _ ih =>
      rename_i role name args line _
      have hrows := List.forall_mem_map.2 ih
      rw [lexemes, lexemesEach_eq_map]
      split
      · exact .reference role hname (by simp) fun hrest hmore => ⟨hrest.isBoundary, hmore⟩
      · exact .reference role hname (Printed.isPlain_between (b := .paren) hrows)
          fun _ hmore => ⟨rfl, fun b => Printed.tiles_between (b := .paren) hrows b hmore⟩
  | sign hop _ ih => exact .sign hop ih
  | binary hop _ _ ihl ihr => exact .binary _ ihl ihr

/-! ### What they say -/

/-- The items of a row of lexemes. -/
def itemsOf (ls : List Lexeme) : List Item :=
  ls.flatMap (·.item? 0)

theorem itemsOf_cons (l : Lexeme) (ls : List Lexeme) : itemsOf (l :: ls) = l.item? 0 ++ itemsOf ls :=
  List.flatMap_cons

theorem itemsOf_append (ls ms : List Lexeme) : itemsOf (ls ++ ms) = itemsOf ls ++ itemsOf ms :=
  List.flatMap_append

theorem Lexeme.IsPlain.item? {l : Lexeme} (h : l.IsPlain) (brackets : Nat) :
    l.item? brackets = l.item? 0 := by
  cases hcls : l.cls <;> first | exact absurd hcls h.inline | simp [Lexeme.item?, Lexeme.read, hcls]

theorem said_plain {ls : List Lexeme} (h : ∀ l ∈ ls, l.IsPlain) (brackets : Nat) :
    said brackets ls = some (itemsOf ls ++ [.eof]) := by
  induction ls generalizing brackets with
  | nil => rfl
  | cons l ls ih =>
      obtain ⟨hl, hls⟩ := List.forall_mem_cons.1 h
      rw [said, hl.good, ih hls, hl.item?, itemsOf_cons]
      simp

theorem feedless_textOf {ls : List Lexeme} (h : ∀ l ∈ ls, l.IsPlain) : '\n' ∉ textOf ls := by
  rw [textOf, List.mem_flatMap]
  rintro ⟨l, hl, hfeed⟩
  exact (h l hl).feedless hfeed

section Items

variable (ls : List Lexeme)

@[simp] theorem itemsOf_nil : itemsOf [] = [] := rfl

@[simp] theorem itemsOf_mark (s : Symbol) : itemsOf (.mark s :: ls) = .symbol s :: itemsOf ls := rfl

@[simp] theorem itemsOf_word (k : Keyword) : itemsOf (.word k :: ls) = .keyword k :: itemsOf ls := rfl

@[simp] theorem itemsOf_space : itemsOf (.space :: ls) = itemsOf ls := rfl

@[simp] theorem itemsOf_operator (op : Operator) :
    itemsOf (op.lexeme :: ls) = op.item :: itemsOf ls := by
  cases op <;> rfl

theorem itemsOf_name {name : String} (h : Keyword.ofText? name = none) :
    itemsOf (.name name :: ls) = .ident name :: itemsOf ls := by
  have hclass : wordClass none name.toList none = .ident := by
    rw [wordClass, String.ofList_toList, h]
  rw [itemsOf_cons, Lexeme.name, hclass]
  simp [Lexeme.item?, Lexeme.read]

theorem exists_label (name : String) :
    ∃ label : Label, label.text = name ∧ itemsOf (.name name :: ls) = label.item :: itemsOf ls := by
  rw [itemsOf_cons, Lexeme.name]
  rcases wordClass_cases none name.toList none with h | ⟨k, h, hk⟩
  · exact ⟨.ident name, rfl, by simp [h, Lexeme.item?, Lexeme.read, Label.item]⟩
  · exact ⟨.keyword k, (String.toList_inj.1 hk).symm, by simp [h, Lexeme.item?, Lexeme.read, Label.item]⟩

end Items

theorem decimalValue_eq_ofDigitChars {digits : List Char} (h : ∀ c ∈ digits, c.isDigit = true)
    (start : Nat) : decimalValue start digits = Nat.ofDigitChars 10 digits start := by
  induction digits generalizing start with
  | nil => rfl
  | cons c digits ih =>
      obtain ⟨hc, hdigits⟩ := List.forall_mem_cons.1 h
      rw [decimalValue, ih hdigits, Nat.ofDigitChars_cons, digitValue_of_isDigit hc]
      rfl

theorem itemsOf_whole {n : Nat} (h : (Nat.toDigits 10 n).length ≤ Number.maxDigits)
    (ls : List Lexeme) :
    itemsOf (⟨.whole, Nat.toDigits 10 n⟩ :: ls) = .number (.int n) :: itemsOf ls := by
  have hvalue : decimalValue 0 (Nat.toDigits 10 n) = n := by
    rw [decimalValue_eq_ofDigitChars fun c hc =>
      Nat.isDigit_of_mem_toDigits (by decide) (by decide) hc, Nat.ofDigitChars_ten_toDigits]
  simp [itemsOf_cons, Lexeme.item?, Lexeme.read, readWhole, h, hvalue]

end TriggerEngine
