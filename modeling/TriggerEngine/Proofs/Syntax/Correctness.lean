/-
**Reading is the grammar.**

`Soundness` shows that what is read is derived, `Completeness` that what is derived is read, and
`Unambiguity` that a row of tokens is derived in one way.  Here the three meet at the entry into the
grammar: on tokens with the end of the script behind them, a program is read exactly if a script
derives the tokens, opens at most `maxNesting` levels at once, leaves and continues only loops, and
means that program.  The tree is the only one, so its ranks fix how operators bind: a chain of a
tier holds whole chains of the next tier as operands and is folded from the left.

Main results:

* `Parse.program_sound`, `Parse.program_complete` — from the first token of a script;
* `Parse.program_viable` — what was passed before a token was refused is the start of a script;
* `program_eq_ok_iff_derivation` — both directions and the uniqueness of the tree.
-/

import TriggerEngine.Proofs.Syntax.Soundness
import TriggerEngine.Proofs.Syntax.Completeness
import TriggerEngine.Proofs.Syntax.Unambiguity

set_option autoImplicit false

namespace TriggerEngine

namespace Parse

variable {c c' : Cursor} {program : Program}

theorem levels_of_within (hc : c.Within 0 false) : c.levels = maxNesting := by
  rw [Cursor.levels, hc.nesting]
  rfl

theorem program_runFrom (hc : c.Within 0 false) :
    Parse.program.runFrom c =
      (Grammar.statements (·.is .eof) (Grammar.statement (Grammar.rules maxNesting))).runFrom c := by
  rw [Parse.program, entry, runFrom_bind_get, levels_of_within hc]

theorem script_reads (looped : Bool) (P : List Token → Prop) {size : Nat} :
    Reads 0 looped P size (fun tokens nodes rest => ∃ (endings : List (Terminal Ending.item))
        (d : Derivation .statements), endings.map Terminal.token ++ d.yield = tokens ∧
        d.meaning = nodes ∧ d.Fits 0 looped ∧ ∀ t, rest.head? = some t → t.is .eof = true)
      (Grammar.statements (·.is .eof) (Grammar.statement (Grammar.rules maxNesting))) :=
  Grammar.statements_reads (Nat.zero_le _)
    (Grammar.statement_reads (Grammar.rules_reads maxNesting 0 (Nat.zero_add _)))

theorem program_sound (hc : c.Within 0 false)
    (h : Parse.program.runFrom c = (.ok program, c')) :
    ∃ d : Derivation .script, d.meaning = program ∧ d.Fits 0 false ∧
      ∃ stop, stop.is .eof = true ∧ c.left = d.yield ++ [stop] := by
  rw [program_runFrom hc] at h
  obtain ⟨_, hpass, endings, d, rfl, hmeaning, hfits, hstop⟩ :=
    (script_reads false fun _ => True).ok hc trivial le_rfl h
  refine ⟨.script endings d, hmeaning, ⟨hfits.proper, hfits.safe, hfits.room⟩, c'.current,
    hstop _ rfl, ?_⟩
  have hnil : c'.ahead ++ c'.rest = [] := (hpass.ended hc.ended).eq_nil (hstop _ rfl)
  rw [hpass.left, Cursor.left, hnil]
  rfl

theorem program_viable (hc : c.Within 0 false) (h : Refuses Parse.program c c') :
    ∃ (passed more : List Token) (d : Derivation .script), c.left = passed ++ c'.left ∧
      (∀ t ∈ more, t.Fills) ∧ d.yield = passed ++ more ∧ d.Fits 0 false := by
  rw [Refuses, program_runFrom hc] at h
  obtain ⟨-, passed, hleft, more, _, _, hmore, endings, d, hyield, -, hfits, -⟩ :=
    (script_reads false fun _ => True).refused hc trivial le_rfl h
  exact ⟨passed, more, .script endings d, hleft, hmore, hyield, hfits.proper, hfits.safe, hfits.room⟩

theorem program_complete (hc : c.Within 0 false) {stop : Token} (hstop : stop.is .eof = true)
    (d : Derivation .script) (hfits : d.Fits 0 false) (hleft : c.left = d.yield ++ [stop]) :
    ∃ c', Parse.program.runFrom c = (.ok d.meaning, c') := by
  have hin := Grammar.rules_complete maxNesting 0 (Nat.zero_add _)
  have hstart : ∀ t : Token, Phrase.statement.starts (some t.item) = true → t.is .eof = false := by
    intro t ht
    exact (Bool.or_eq_false_iff.1 (Grammar.stopsBlock_of_starts ht)).2
  cases d with
  | script endings body =>
      have hrow : c.left = endings.map Terminal.token ++ (body.yield ++ [stop]) := by
        rw [hleft, ← List.append_assoc]
        rfl
      have hblock : Grammar.stopsBlock stop = true := Bool.or_eq_true_iff.2 (.inr hstop)
      obtain ⟨c', hread, -, -⟩ := Grammar.statements_complete (Grammar.statement_complete hin)
        hstart endings body hc ⟨hfits.proper, hfits.safe, hfits.room⟩ hrow hstop hblock
      exact ⟨c', by rw [program_runFrom hc]; exact hread⟩

end Parse

theorem Cursor.exists_start (file : String) (fault : Option Fault) {tokens : List Token}
    (h : Ended tokens) :
    ∃ c, Cursor.start file ⟨tokens, fault⟩ = .ok c ∧ c.left = tokens ∧ c.Within 0 false := by
  cases tokens with
  | nil => exact absurd rfl h.ne_nil
  | cons token rest => exact ⟨_, rfl, rfl, h, rfl, rfl, Nat.zero_le _⟩

/-- **Reading is the grammar**: from tokens that end with the only end of the script, a program is
read exactly if some tree derives the tokens, fits the limits of a script and means the program;
and no other tree derives them. -/
theorem program_eq_ok_iff_derivation (file : String) (fault : Option Fault) (body : List Token)
    (stop : Token) (hbody : ∀ t ∈ body, t.is .eof = false) (hstop : stop.is .eof = true)
    (program : Program) :
    (Tape.program file ⟨body ++ [stop], fault⟩ = .ok program ↔
      ∃ d : Derivation .script, d.yield = body ∧ d.Fits 0 false ∧ d.meaning = program) ∧
    ∀ d d' : Derivation .script, d.Proper → d'.Proper → d.yield = body → d'.yield = body →
      d = d' := by
  obtain ⟨c, hstart, hleft, hc⟩ := Cursor.exists_start file fault ⟨body, stop, rfl, hstop, hbody⟩
  have hprogram : Tape.program file ⟨body ++ [stop], fault⟩ = (Parse.program.runFrom c).1 := by
    rw [Tape.program, hstart]
  refine ⟨⟨fun h => ?_, ?_⟩, fun d d' hd hd' hy hy' => d.unique_script hd hd' (hy.trans hy'.symm)⟩
  · rw [hprogram] at h
    have hread : Parse.program.runFrom c = (.ok program, (Parse.program.runFrom c).2) :=
      Prod.ext h rfl
    obtain ⟨d, hmeaning, hfits, stop', -, hyield⟩ := Parse.program_sound hc hread
    have hsplit := hyield.symm.trans hleft
    exact ⟨d, (List.append_inj' hsplit rfl).1, hfits, hmeaning⟩
  · rintro ⟨d, rfl, hfits, rfl⟩
    obtain ⟨c', hread⟩ := Parse.program_complete hc hstop d hfits hleft
    rw [hprogram, hread]

/-- The tokens of `while a or b and not c { break }` have a tree, whose meaning nests the operators
by rank. -/
theorem exists_derivation_repetition :
    ∃ d : Derivation .script,
      d.yield = [⟨.keyword .whileWord, 1, 1⟩, ⟨.ident "a", 1, 7⟩, ⟨.keyword .orWord, 1, 9⟩,
        ⟨.ident "b", 1, 12⟩, ⟨.keyword .andWord, 1, 14⟩, ⟨.keyword .notWord, 1, 18⟩,
        ⟨.ident "c", 1, 22⟩, ⟨.symbol .lbrace, 1, 24⟩, ⟨.keyword .breakWord, 1, 26⟩,
        ⟨.symbol .rbrace, 1, 32⟩] ∧
      d.Fits 0 false ∧
      d.meaning =
        let line : Line := .number 1
        [.repetition
          (.binary .or (.ident "a" line)
            (.binary .and (.ident "b" line) (.unary .not (.ident "c" line) line) line) line)
          (.block [.leave line] line) line] := by
  refine (program_eq_ok_iff_derivation "loop" none _ ⟨.eof, 1, 33⟩ ?_ rfl _).1.1 ?_
  · decide
  · cbv

end TriggerEngine
