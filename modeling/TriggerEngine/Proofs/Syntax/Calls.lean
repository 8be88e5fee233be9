/-
**The ways to call an executor.**

An executor is called in a long form and in two short ones, with its arguments in parentheses or
without.  Which form a script uses makes no difference: the same arguments are read in the same way
in all of them, and the statement is the same.  The parentheses open a level, so an argument that
may stand in every form opens at most one level less than there are.

Main definitions:

* `ReadsWhole` — a row of tokens is read as one expression, up to its last token;
* `Listed` — rows with commas between them;
* `WritesCall` — the ways to write a call.

Main results:

* `ReadsWhole.derives`, `Listed.derives` — arguments that are read one by one are derived together;
* `program_eq_of_writesCall` — **all ways to call an executor mean the same**.
-/

import TriggerEngine.Proofs.Syntax.Correctness

set_option autoImplicit false

namespace TriggerEngine

/-! ### Arguments -/

/-- Whether a row of tokens is read as an expression up to its last token, by a cursor that has
opened some levels before. -/
def ReadsWhole (opened : Nat) (tokens : List Token) (node : Node) : Prop :=
  (∀ t ∈ tokens, t.is .eof = false) ∧ ∃ (stop : Token) (c c' : Cursor), stop.is .eof = true ∧
    c.left = tokens ++ [stop] ∧ c.nesting = opened ∧
    (Parse.entry Grammar.expr).runFrom c = (.ok node, c') ∧ c'.left = [stop]

/-- Rows of tokens one after the other, with commas between them. -/
inductive Listed : List (List Token) → List Token → Prop
  | none : Listed [] []
  | last (row : List Token) : Listed [row] row
  | more {row next tokens : List Token} {rows : List (List Token)} (line column : Nat) :
      Listed (next :: rows) tokens →
      Listed (row :: next :: rows) (row ++ ⟨.symbol .comma, line, column⟩ :: tokens)

/-- Whether a row of tokens is derived as a phrase with a meaning, where some levels are open. -/
def Phrase.Derives (p : Phrase) (opened : Nat) (tokens : List Token) (a : p.Meaning) : Prop :=
  ∃ d : Derivation p, d.yield = tokens ∧ d.meaning = a ∧ d.Proper ∧ opened + d.levels ≤ maxNesting

theorem ReadsWhole.derives {opened : Nat} {tokens : List Token} {node : Node}
    (h : ReadsWhole opened tokens node) (hopened : opened ≤ maxNesting) :
    Phrase.expression.Derives opened tokens node := by
  obtain ⟨hbody, stop, c, c', hstop, hleft, hnesting, hread, hleft'⟩ := h
  have hlevels : opened + c.levels = maxNesting := by
    rw [Cursor.levels, hnesting]
    omega
  rw [Parse.entry, Parse.runFrom_bind_get] at hread
  obtain ⟨d, hmeaning, hpass, hfits, -⟩ := Grammar.expr_sound c.levels opened _ hlevels
    ⟨⟨tokens, stop, hleft, hstop, hbody⟩, hnesting, rfl, hopened⟩ hread
  have hyield := hpass.left.symm.trans hleft
  rw [hleft'] at hyield
  exact ⟨d, List.append_cancel_right hyield, hmeaning, hfits.proper, hfits.room⟩

section Rows

variable {rows : List (List Token)} {args : List Node} {tokens : List Token}
  (h : List.Forall₂ (ReadsWhole 1) rows args) (hlisted : Listed rows tokens)

include h hlisted

theorem Listed.derives (hrows : rows ≠ []) :
    Phrase.bare.Derives 1 tokens args ∧ (Phrase.elements .paren).Derives 1 tokens args := by
  induction hlisted generalizing args with
  | none => exact absurd rfl hrows
  | last row =>
      cases h with
      | cons hrow hnil =>
          cases hnil
          obtain ⟨d, rfl, rfl, hproper, hroom⟩ := hrow.derives (by decide)
          exact ⟨⟨.lastBare d, rfl, rfl, hproper, hroom⟩, .lastElement d, rfl, rfl, hproper, hroom⟩
  | more line column _ ih =>
      cases h with
      | cons hrow hrest =>
          obtain ⟨d, rfl, rfl, hproper, hroom⟩ := hrow.derives (by decide)
          obtain ⟨⟨b, rfl, hb, hbproper, hbroom⟩, e, he, he', heproper, heroom⟩ :=
            ih hrest (List.cons_ne_nil _ _)
          refine ⟨⟨.bare d ⟨(), line, column⟩ b, rfl, congrArg _ hb, ⟨hproper, hbproper⟩, ?_⟩,
            .element d ⟨(), line, column⟩ e, ?_, congrArg _ he', ⟨hproper, heproper⟩, ?_⟩
          · show 1 + max d.levels b.levels ≤ maxNesting
            omega
          · show d.yield ++ _ :: e.yield = _
            rw [he]
            rfl
          · show 1 + max d.levels e.levels ≤ maxNesting
            omega

theorem Listed.derives_elements : (Phrase.elements .paren).Derives 1 tokens args := by
  cases hlisted with
  | none =>
      cases h
      exact ⟨.noElement, rfl, rfl, trivial, by decide⟩
  | last => exact (Listed.derives h (.last _) (List.cons_ne_nil _ _)).2
  | more line column hmore =>
      exact (Listed.derives h (.more line column hmore) (List.cons_ne_nil _ _)).2

theorem Listed.not_eof : ∀ t ∈ tokens, t.is .eof = false := by
  induction hlisted generalizing args with
  | none => simp
  | last row =>
      cases h with
      | cons hrow _ => exact hrow.1
  | more line column _ ih =>
      cases h with
      | cons hrow hrest =>
          exact List.forall_mem_append.2 ⟨hrow.1, List.forall_mem_cons.2 ⟨rfl, ih hrest⟩⟩

end Rows

theorem Listed.startsWith_lparen {rows : List (List Token)} {tokens : List Token}
    (h : Listed rows tokens) (hfirst : ∀ row ∈ rows.head?, startsWith .lparen row = false) :
    startsWith .lparen tokens = false := by
  cases h with
  | none => rfl
  | last => exact hfirst _ rfl
  | @more row =>
      cases row with
      | nil => rfl
      | cons t row => exact hfirst (t :: row) rfl

/-! ### Calls -/

/-- The ways to write a call in a line: in the long form, with `with` in front of the arguments if
there are any, and in the short form, without parentheses or with them. -/
inductive WritesCall (line : Nat) (name : Label) (rows : List (List Token)) : List Token → Prop
  | plain (i j k : Nat) : rows = [] →
      WritesCall line name rows [⟨.keyword .callWord, line, i⟩, ⟨.keyword .executorWord, line, j⟩,
        ⟨.string name.text, line, k⟩]
  | having {tokens : List Token} (i j k l : Nat) : rows ≠ [] → Listed rows tokens →
      WritesCall line name rows (⟨.keyword .callWord, line, i⟩ :: ⟨.keyword .executorWord, line, j⟩ ::
        ⟨.string name.text, line, k⟩ :: ⟨.keyword .withWord, line, l⟩ :: tokens)
  | bare {tokens : List Token} (i j : Nat) : Listed rows tokens →
      WritesCall line name rows (⟨.symbol .hash, line, i⟩ :: ⟨name.item, line, j⟩ :: tokens)
  | group {tokens : List Token} (i j k l : Nat) : Listed rows tokens →
      WritesCall line name rows (⟨.symbol .hash, line, i⟩ :: ⟨name.item, line, j⟩ ::
        ⟨.symbol .lparen, line, k⟩ :: (tokens ++ [⟨.symbol .rparen, line, l⟩]))

theorem WritesCall.derives {line : Nat} {name : Label} {rows : List (List Token)} {args : List Node}
    {tokens : List Token} (h : WritesCall line name rows tokens)
    (hrows : List.Forall₂ (ReadsWhole 1) rows args)
    (hfirst : ∀ row ∈ rows.head?, startsWith .lparen row = false) :
    ∃ d : Derivation .statement, d.yield = tokens ∧
      d.meaning = Grammar.executorCall name.text args line ∧ d.Fits 0 false := by
  cases h with
  | plain i j k hnil =>
      subst hnil
      cases hrows
      exact ⟨.longCall ⟨(), line, i⟩ ⟨(), line, j⟩ ⟨name.text, line, k⟩, rfl, rfl, trivial, trivial,
        Nat.zero_le _⟩
  | having i j k l hne hlisted =>
      obtain ⟨⟨b, rfl, rfl, hproper, hroom⟩, -⟩ := hlisted.derives hrows hne
      exact ⟨.longCallWith ⟨(), line, i⟩ ⟨(), line, j⟩ ⟨name.text, line, k⟩ ⟨(), line, l⟩ b, rfl, rfl,
        hproper, trivial, (show 0 + b.levels ≤ maxNesting by omega)⟩
  | bare i j hlisted =>
      -- Without arguments there is no row; with some, the first one does not look like a group.
      by_cases hne : rows = []
      · subst hne
        cases hlisted
        cases hrows
        exact ⟨.shortCall ⟨(), line, i⟩ ⟨name, line, j⟩, rfl, rfl, trivial, trivial, Nat.zero_le _⟩
      · have hopens := hlisted.startsWith_lparen hfirst
        obtain ⟨⟨b, rfl, rfl, hproper, hroom⟩, -⟩ := hlisted.derives hrows hne
        exact ⟨.shortCallBare ⟨(), line, i⟩ ⟨name, line, j⟩ b, rfl, rfl, ⟨hproper, hopens⟩, trivial,
          (show 0 + b.levels ≤ maxNesting by omega)⟩
  | group i j k l hlisted =>
      obtain ⟨e, rfl, rfl, hproper, hroom⟩ := hlisted.derives_elements hrows
      exact ⟨.shortCallGroup ⟨(), line, i⟩ ⟨name, line, j⟩
        (.arguments ⟨(), line, k⟩ e ⟨(), line, l⟩), rfl, rfl, hproper, trivial,
        (show 0 + (e.levels + 1) ≤ maxNesting by omega)⟩

theorem WritesCall.not_eof {line : Nat} {name : Label} {rows : List (List Token)} {args : List Node}
    {tokens : List Token} (h : WritesCall line name rows tokens)
    (hrows : List.Forall₂ (ReadsWhole 1) rows args) : ∀ t ∈ tokens, t.is .eof = false := by
  have hname : ∀ column, (Token.mk name.item line column).is .eof = false := by
    intro column
    cases name <;> rfl
  cases h with
  | plain i j k _ =>
      simp only [List.forall_mem_cons]
      exact ⟨rfl, rfl, rfl, by simp⟩
  | having i j k l _ hlisted =>
      simp only [List.forall_mem_cons]
      exact ⟨rfl, rfl, rfl, rfl, hlisted.not_eof hrows⟩
  | bare i j hlisted =>
      simp only [List.forall_mem_cons]
      exact ⟨rfl, hname j, hlisted.not_eof hrows⟩
  | group i j k l hlisted =>
      simp only [List.forall_mem_cons, List.forall_mem_append]
      exact ⟨rfl, hname j, rfl, hlisted.not_eof hrows, rfl, by simp⟩

/-- **All ways to call an executor mean the same.**  Let some rows of tokens each be read as a whole
where one level is open, and let the first one not start with a parenthesis.  Then the call with
these arguments, in whichever form it is written, is read as one statement: the call of the executor
with what the rows are read as, in the line of the call. -/
theorem program_eq_of_writesCall (file : String) (fault : Option Fault) {line : Nat} {name : Label}
    {rows : List (List Token)} {args : List Node} {tokens : List Token} {stop : Token}
    (hrows : List.Forall₂ (ReadsWhole 1) rows args)
    (hfirst : ∀ row ∈ rows.head?, startsWith .lparen row = false)
    (h : WritesCall line name rows tokens) (hstop : stop.is .eof = true) :
    Tape.program file ⟨tokens ++ [stop], fault⟩ =
      .ok [Grammar.executorCall name.text args line] := by
  obtain ⟨d, hyield, hmeaning, hfits⟩ := h.derives hrows hfirst
  obtain ⟨c, hstart, hleft, hc⟩ :=
    Cursor.exists_start file fault ⟨tokens, stop, rfl, hstop, h.not_eof hrows⟩
  obtain ⟨c', hread⟩ := Parse.program_complete hc hstop (.script [] (.lastStatement d))
    ⟨hfits.proper, hfits.safe, hfits.room⟩ (hleft.trans (congrArg (· ++ [stop]) hyield.symm))
  rw [Tape.program, hstart, ← hmeaning]
  exact congrArg Prod.fst hread

/-- The tokens of `call executor "go" with -1, x`, of `#go -1, x` and of `#go(-1, x)`. -/
theorem program_eq_of_writesCall_two :
    let first : List Token := [⟨.symbol .minus, 1, 25⟩, ⟨.number (.int 1), 1, 26⟩]
    let second : List Token := [⟨.ident "x", 1, 29⟩]
    let listed : List Token := first ++ ⟨.symbol .comma, 1, 27⟩ :: second
    let args : List Node := [.unary .sub (.literal .number (.int 1) (.number 1) 26) (.number 1),
      .ident "x" (.number 1)]
    ∀ tokens ∈ [⟨.keyword .callWord, 1, 1⟩ :: ⟨.keyword .executorWord, 1, 6⟩ ::
        ⟨.string "go", 1, 15⟩ :: ⟨.keyword .withWord, 1, 20⟩ :: listed,
      ⟨.symbol .hash, 1, 1⟩ :: ⟨.ident "go", 1, 2⟩ :: listed,
      ⟨.symbol .hash, 1, 1⟩ :: ⟨.ident "go", 1, 2⟩ :: ⟨.symbol .lparen, 1, 4⟩ ::
        (listed ++ [⟨.symbol .rparen, 1, 30⟩])],
      Tape.program "calls" ⟨tokens ++ [⟨.eof, 1, 31⟩], none⟩ =
        .ok [Grammar.executorCall "go" args (.number 1)] := by
  intro first second listed args tokens htokens
  let stop : Token := ⟨.eof, 1, 31⟩
  have hfirst : ReadsWhole 1 first (.unary .sub (.literal .number (.int 1) (.number 1) 26) (.number 1)) :=
    ⟨by decide, stop, ⟨⟨.symbol .minus, 1, 25⟩, [], [⟨.number (.int 1), 1, 26⟩, stop], none, "", 1, 0⟩,
      ⟨stop, [], [], none, "", 1, 0⟩, rfl, rfl, rfl, by cbv, rfl⟩
  have hsecond : ReadsWhole 1 second (.ident "x" (.number 1)) :=
    ⟨by decide, stop, ⟨⟨.ident "x", 1, 29⟩, [], [stop], none, "", 1, 0⟩,
      ⟨stop, [], [], none, "", 1, 0⟩, rfl, rfl, rfl, by cbv, rfl⟩
  have hlisted : Listed [first, second] listed := .more 1 27 (.last second)
  have hcall : WritesCall 1 (.ident "go") [first, second] tokens := by
    simp only [List.mem_cons, List.not_mem_nil, or_false] at htokens
    rcases htokens with rfl | rfl | rfl
    · exact .having 1 6 15 20 (List.cons_ne_nil _ _) hlisted
    · exact .bare 1 2 hlisted
    · exact .group 1 2 4 30 hlisted
  refine program_eq_of_writesCall "calls" none (.cons hfirst (.cons hsecond .nil)) ?_ hcall rfl
  rintro row ⟨⟩
  rfl

end TriggerEngine
