/-
**What compiling a script comes to.**

A script compiles, or it is refused for one of three reasons: one of its lexemes is bad, its tokens
are no program, or it writes a whole number with more digits than can be read.  A refusal of the
first two sorts names a place, and that is the place where a lexeme of the script starts, or the
place behind its last character.  There is no other way to end.

Main definitions:

* `Place.IsIn` — the places of a script that a refusal may name.

Main results:

* `tape_of_compile` — the tape of a script that compiles does not break off;
* `compile_outcome` — **a script compiles or is refused at a place of its own**.
-/

import TriggerEngine.Proofs.Syntax.Locality
import TriggerEngine.Proofs.Token.Tiling

set_option autoImplicit false

namespace TriggerEngine

/-- A place at which a lexeme of a script starts, or the place behind it; lines and columns are
counted from one, and the column is at most one behind the characters of its line. -/
structure Place.IsIn (place : Place) (source : List Char) : Prop where
  mark : IsMark source place.line place.column
  line_pos : 1 ≤ place.line
  line_le : place.line ≤ 1 + source.count '\n'
  column_pos : 1 ≤ place.column
  column_le : ∃ row, (linesOf source)[place.line - 1]? = some row ∧ place.column ≤ row.length + 1

theorem IsMark.isIn {source : List Char} {line column : Nat} (h : IsMark source line column)
    (file : Option String) : Place.IsIn ⟨line, column, file⟩ source := by
  obtain ⟨hline, hline', hcolumn, hcolumn'⟩ := h.within
  exact ⟨h, hline, hline', hcolumn, hcolumn'⟩

variable {file source : String}

theorem start_of_tape (file source : String) :
    (∃ c, Cursor.start file (tape (some file) source) = .ok c ∧ c.Complete ∧
      c.left = (tape (some file) source).tokens ∧ c.fault = (tape (some file) source).fault) ∨
    ∃ fault, (tape (some file) source).fault = some fault ∧
      Cursor.start file (tape (some file) source) = .error fault := by
  rcases htape : tape (some file) source with ⟨tokens, fault⟩
  have hended : fault = none → Ended tokens := by
    intro hnone
    have hfault : (tape (some file) source).fault = none := by rw [htape, hnone]
    have h := (tapeFrom_ended hfault).1
    rwa [← tape, htape] at h
  cases tokens with
  | cons token rest => exact .inl ⟨_, rfl, hended, rfl, rfl⟩
  | nil =>
      cases fault with
      | none => exact absurd rfl (hended rfl).ne_nil
      | some fault => exact .inr ⟨fault, rfl, rfl⟩

theorem tape_of_compile {program : Program} (h : compile file source = .ok program) :
    (tape (some file) source).fault = none := by
  rcases start_of_tape file source with ⟨c, hstart, hc, hleft, -⟩ | ⟨fault, -, hstart⟩
  · have hcompile : compile file source = (Parse.program.runFrom c).1 := by
      rw [compile, Tape.program, hstart]
    rcases hrun : Parse.program.runFrom c with ⟨result, c'⟩
    rw [hcompile, hrun] at h
    obtain rfl : result = .ok program := h
    -- the reading has come to the end of the script, so that end is on the tape
    have heof := Parse.program_current hc hrun
    have hmem : c'.current ∈ (tape (some file) source).tokens := by
      rw [← hleft]
      exact (hrun ▸ Parse.program_comes hc).forward.subset List.mem_cons_self
    cases hfault : (tape (some file) source).fault with
    | none => rfl
    | some fault =>
        rw [tapeFrom_broken hfault _ hmem] at heof
        cases heof
  · rw [compile, Tape.program, hstart] at h
    cases h

/-- **A script compiles or is refused at a place of its own**: it is compiled, or refused because of
a lexeme or because of a token, at a place where one of its lexemes starts or behind them all, or
refused because of a whole number of more than 4300 digits that is one of its lexemes. -/
theorem compile_outcome (file source : String) :
    (∃ program, compile file source = .ok program) ∨
    (∃ cause place, compile file source = .error (.lex cause place) ∧
      place.IsIn source.toList) ∨
    (∃ cause place, compile file source = .error (.parse cause place) ∧
      place.IsIn source.toList) ∨
    ∃ lexeme ∈ lexemes source.toList, lexeme.cls = .whole ∧ 4300 < lexeme.text.length ∧
      compile file source = .error (.tooManyDigitsRead lexeme.text.length) := by
  have hmet : ∀ fault, (tape (some file) source).fault = some fault →
      compile file source = .error fault →
      (∃ cause place, compile file source = .error (.lex cause place) ∧
        place.IsIn source.toList) ∨
      ∃ lexeme ∈ lexemes source.toList, lexeme.cls = .whole ∧ 4300 < lexeme.text.length ∧
        compile file source = .error (.tooManyDigitsRead lexeme.text.length) := by
    intro fault hfault hcompile
    rcases fault_of_tape hfault with
      ⟨cause, line, column, rfl, hmark⟩ | ⟨lexeme, hmem, hcls, hlen, rfl⟩
    · exact .inl ⟨cause, _, hcompile, hmark.isIn _⟩
    · exact .inr ⟨lexeme, hmem, hcls, hlen, hcompile⟩
  rcases start_of_tape file source with ⟨c, hstart, hc, hleft, hfault⟩ | ⟨fault, hfault, hstart⟩
  · have hcompile : compile file source = (Parse.program.runFrom c).1 := by
      rw [compile, Tape.program, hstart]
    have hcomes := Parse.program_comes hc
    rcases hrun : Parse.program.runFrom c with ⟨result, c'⟩
    rw [hrun] at hcomes hcompile
    cases hcomes with
    | done => exact .inl ⟨_, hcompile⟩
    | complained cause forward =>
        have hmem : c'.current ∈ (tape (some file) source).tokens := by
          rw [← hleft]
          exact forward.subset List.mem_cons_self
        exact .inr (.inr (.inl ⟨cause, _, hcompile, (isMark_of_mem_tape hmem).isIn _⟩))
    | met _ met =>
        rcases hmet _ (hfault ▸ met) hcompile with h | h
        · exact .inr (.inl h)
        · exact .inr (.inr (.inr h))
  · rcases hmet fault hfault (by rw [compile, Tape.program, hstart]) with h | h
    · exact .inr (.inl h)
    · exact .inr (.inr (.inr h))

end TriggerEngine
