/-
**Reading all tokens first.**

A script is checked by reading its tokens one by one, as the grammar asks for them; before it is run
from a file, all of its tokens are read first.  The two agree on the scripts that compile, and on
what they compile to.  If a lexeme is bad, the second way reports that and nothing else, while the
first one may have a complaint about a token before it gets there.  The bad lexeme then starts
behind that token: no rule of the grammar looks so far ahead that it meets the bad lexeme before it
complains.

Main definitions:

* `Position.Before` — the order in which the places of a script are read;
* `Lexeme.IsFirstBad` — the first bad lexeme of a script, and what is reported about it.

Main results:

* `breaks_of_tape` — where a tape breaks off, and where its tokens stand;
* `compile_cases` — the ways in which reading tokens one by one ends;
* `compileWhole_agrees` — **the two ways to compile a script agree**.
-/

import TriggerEngine.Proofs.Syntax.Outcome

set_option autoImplicit false

namespace TriggerEngine

/-! ### The order of places -/

/-- One place comes before another one when a script is read. -/
def Position.Before (p q : Position) : Prop :=
  p.line < q.line ∨ p.line = q.line ∧ p.column < q.column

namespace Position

theorem Before.trans {p q r : Position} (h : p.Before q) (h' : q.Before r) : p.Before r := by
  unfold Before at *
  omega

theorem before_step (p : Position) (c : Char) : p.Before (p.step c) := by
  unfold Before step
  split
  · exact .inl (Nat.lt_succ_self _)
  · exact .inr ⟨rfl, Nat.lt_succ_self _⟩

theorem before_past (p : Position) {cs : List Char} (h : cs ≠ []) : p.Before (p.past cs) := by
  induction cs generalizing p with
  | nil => exact absurd rfl h
  | cons c cs ih =>
      have hstep : p.Before (p.step c) := p.before_step c
      by_cases hcs : cs = []
      · simpa [hcs, past] using hstep
      · exact hstep.trans (ih (p.step c) hcs)

end Position

/-! ### The first bad lexeme -/

theorem Tiles.of_append {before : Option Char} {cs : List Char} {done ahead : List Lexeme}
    {lexeme : Lexeme} (h : Tiles before cs (done ++ lexeme :: ahead)) :
    lexeme.text ≠ [] ∧ (∀ l ∈ done, l.cls.isBad = false) ∧
      (lexeme.cls.isBad = true → ahead = []) := by
  induction done generalizing before cs with
  | nil =>
      cases h with
      | bad => exact ⟨by simp, by simp, fun _ => rfl⟩
      | cons _ hgood _ => exact ⟨by simp, by simp, fun hbad => by simp [hgood] at hbad⟩
  | cons l done ih =>
      rw [List.cons_append] at h
      generalize hrest : done ++ lexeme :: ahead = rest at h
      cases h with
      | bad => simp at hrest
      | cons _ hgood htail =>
          subst hrest
          obtain ⟨htext, hdone, hlast⟩ := ih htail
          exact ⟨htext, List.forall_mem_cons.2 ⟨hgood, hdone⟩, hlast⟩

/-- The first bad lexeme of a script, the place where it starts and what is reported about it. -/
structure Lexeme.IsFirstBad (bad : Lexeme) (file : Option String) (source : List Char)
    (p : Position) (fault : Fault) : Prop where
  isBad : bad.cls.isBad = true
  first : ∃ done, lexemes source = done ++ [bad] ∧ (∀ l ∈ done, l.cls.isBad = false) ∧
    p = Position.start.past (textOf done)
  read : ∀ brackets, bad.read file p brackets = .fault fault
  lex : ∃ cause, fault = .lex cause ⟨p.line, p.column, file⟩

theorem Lexeme.read_of_lex {file : Option String} {p : Position} {brackets : Nat} {lexeme : Lexeme}
    {cause : LexCause} {place : Place} (h : lexeme.read file p brackets = .fault (.lex cause place)) :
    lexeme.cls.isBad = true ∧ ∀ b, lexeme.read file p b = .fault (.lex cause place) := by
  unfold Lexeme.read readWhole at *
  cases hcls : lexeme.cls <;> grind [LexemeClass.isBad, Fault.tooManyDigitsRead]

section Script

variable {file source : String}
  (hshort : ∀ lexeme ∈ lexemes source.toList, lexeme.cls = .whole →
    lexeme.text.length ≤ Number.maxDigits)

include hshort

theorem breaks_of_tape {fault : Fault} (h : (tape (some file) source).fault = some fault) :
    ∃ bad p, Lexeme.IsFirstBad bad (some file) source.toList p fault ∧
      ∀ token ∈ (tape (some file) source).tokens, Position.Before ⟨token.line, token.column⟩ p := by
  obtain ⟨done, bad, ahead, brackets, hls, hread, hplaces⟩ := read_of_tapeFrom_fault h
  rcases Lexeme.fault_of_read hread with ⟨cause, rfl⟩ | ⟨hcls, hlen, -⟩
  · obtain ⟨hbad, hany⟩ := Lexeme.read_of_lex hread
    obtain ⟨-, hdone, hlast⟩ := (hls ▸ tiles_lexemes source.toList).of_append
    obtain rfl := hlast hbad
    refine ⟨bad, _, ⟨hbad, ⟨done, hls, hdone, rfl⟩, hany, cause, rfl⟩, ?_⟩
    intro token htoken
    obtain ⟨front, l, behind, rfl, hplace⟩ := hplaces token htoken
    rw [hplace, textOf_append, Position.past_append]
    refine Position.before_past _ ?_
    -- the lexeme of the token lies between them, and it is not empty
    have htiles := tiles_lexemes source.toList
    rw [hls, List.append_assoc, List.cons_append] at htiles
    simp [htiles.of_append.1]
  · have hmem : bad ∈ lexemes source.toList := by simp [hls]
    have := hshort bad hmem hcls
    omega

end Script

/-! ### Two ways to compile -/

variable {file source : String}

theorem compile_cases (file source : String) :
    (∃ program, compile file source = .ok program) ∨
    (∃ cause place, ∃ token ∈ (tape (some file) source).tokens,
      place.line = token.line ∧ place.column = token.column ∧
        compile file source = .error (.parse cause place)) ∨
    ∃ fault, (tape (some file) source).fault = some fault ∧ compile file source = .error fault := by
  rcases start_of_tape file source with ⟨c, hstart, hc, hleft, hfault⟩ | ⟨fault, hfault, hstart⟩
  · have hcompile : compile file source = (Parse.program.runFrom c).1 := by
      rw [compile, Tape.program, hstart]
    have hcomes := Parse.program_comes hc
    rcases hrun : Parse.program.runFrom c with ⟨result, c'⟩
    rw [hrun] at hcomes hcompile
    cases hcomes with
    | done => exact .inl ⟨_, hcompile⟩
    | complained cause forward =>
        refine .inr (.inl ⟨cause, c'.place, c'.current, ?_, rfl, rfl, hcompile⟩)
        rw [← hleft]
        exact forward.subset List.mem_cons_self
    | met _ met => exact .inr (.inr ⟨_, hfault ▸ met, hcompile⟩)
  · exact .inr (.inr ⟨fault, hfault, by rw [compile, Tape.program, hstart]⟩)

theorem Tape.whole_eq_ok_iff {t : Tape} {tokens : List Token} :
    t.whole = .ok tokens ↔ t = ⟨tokens, none⟩ := by
  rcases t with ⟨tokens', _ | fault⟩ <;> simp [Tape.whole]

theorem Tape.whole_eq_error_iff {t : Tape} {fault : Fault} :
    t.whole = .error fault ↔ t.fault = some fault := by
  rcases t with ⟨tokens, _ | fault'⟩ <;> simp [Tape.whole]

theorem compileWhole_of_whole {tokens : List Token}
    (h : (tape (some file) source).whole = .ok tokens) :
    compileWhole file source = (compile file source).map fun program => (tokens, program) := by
  rw [compileWhole, h, compile, Tape.whole_eq_ok_iff.1 h]
  rfl

theorem compileWhole_of_fault {fault : Fault} (h : (tape (some file) source).fault = some fault) :
    compileWhole file source = .error fault := by
  rw [compileWhole, Tape.whole_eq_error_iff.2 h]
  rfl

theorem compile_eq_ok_iff (program : Program) :
    compile file source = .ok program ↔
      ∃ tokens, compileWhole file source = .ok (tokens, program) := by
  cases hwhole : (tape (some file) source).whole with
  | ok tokens =>
      rw [compileWhole_of_whole hwhole]
      cases compile file source <;> simp [Except.map]
  | error fault =>
      rw [Tape.whole_eq_error_iff] at hwhole
      constructor
      · intro hcompile
        simp [tape_of_compile hcompile] at hwhole
      · rintro ⟨tokens, hcompile⟩
        simp [compileWhole_of_fault hwhole] at hcompile

/-- **The two ways to compile a script agree**, if it writes no whole number with more digits than
can be read: they give the same programs; a bad lexeme that is met when the tokens are read one by
one is reported either way; and a complaint about a token is the same, unless a lexeme is bad.  Then
that is reported if all tokens are read first, and that lexeme starts behind the token of the
complaint. -/
theorem compileWhole_agrees (file source : String)
    (hshort : ∀ lexeme ∈ lexemes source.toList, lexeme.cls = .whole →
      lexeme.text.length ≤ Number.maxDigits) :
    (∀ program, compile file source = .ok program ↔
      ∃ tokens, compileWhole file source = .ok (tokens, program)) ∧
    (∀ cause place, compile file source = .error (.lex cause place) →
      compileWhole file source = .error (.lex cause place)) ∧
    (∀ cause place, compile file source = .error (.parse cause place) →
      ∃ token ∈ (tape (some file) source).tokens,
        place.line = token.line ∧ place.column = token.column ∧
        (∀ tokens, (tape (some file) source).whole = .ok tokens →
          compileWhole file source = .error (.parse cause place)) ∧
        ∀ fault, (tape (some file) source).whole = .error fault →
          compileWhole file source = .error fault ∧
          ∃ bad p, Lexeme.IsFirstBad bad (some file) source.toList p fault ∧
            Position.Before ⟨place.line, place.column⟩ p) ∧
    ∀ fault, compile file source = .error fault →
      (∃ cause place, fault = .lex cause place) ∨ ∃ cause place, fault = .parse cause place := by
  -- a fault that was met on the tape is the one of a bad lexeme, and not a complaint
  have hmet : ∀ fault, (tape (some file) source).fault = some fault →
      ∃ cause place, fault = .lex cause place := by
    intro fault hfault
    obtain ⟨bad, p, hbad, -⟩ := breaks_of_tape hshort hfault
    obtain ⟨cause, hlex⟩ := hbad.lex
    exact ⟨cause, _, hlex⟩
  refine ⟨compile_eq_ok_iff, ?_, ?_, ?_⟩
  · intro cause place hcompile
    rcases compile_cases file source with
      ⟨program, hok⟩ | ⟨cause', place', token, -, -, -, hparse⟩ | ⟨fault, hfault, hsame⟩
    · simp [hok] at hcompile
    · simp [hparse] at hcompile
    · obtain rfl : fault = .lex cause place := by simpa [hsame] using hcompile
      exact compileWhole_of_fault hfault
  · intro cause place hcompile
    rcases compile_cases file source with
      ⟨program, hok⟩ | ⟨cause', place', token, htoken, hline, hcolumn, hparse⟩ |
        ⟨fault, hfault, hsame⟩
    · simp [hok] at hcompile
    · obtain ⟨rfl, rfl⟩ : cause' = cause ∧ place' = place := by simpa [hparse] using hcompile
      refine ⟨token, htoken, hline, hcolumn, ?_, ?_⟩
      · intro tokens hwhole
        rw [compileWhole_of_whole hwhole, hcompile]
        rfl
      · intro fault hwhole
        rw [Tape.whole_eq_error_iff] at hwhole
        obtain ⟨bad, p, hbad, hbefore⟩ := breaks_of_tape hshort hwhole
        refine ⟨compileWhole_of_fault hwhole, bad, p, hbad, ?_⟩
        rw [hline, hcolumn]
        exact hbefore token htoken
    · obtain ⟨cause', place', rfl⟩ := hmet fault hfault
      simp [hsame] at hcompile
  · intro fault hcompile
    rcases compile_cases file source with
      ⟨program, hok⟩ | ⟨cause, place, token, -, -, -, hparse⟩ | ⟨fault', hfault, hsame⟩
    · simp [hok] at hcompile
    · refine .inr ⟨cause, place, ?_⟩
      simpa [hparse] using hcompile.symm
    · obtain ⟨cause, place, rfl⟩ := hmet fault' hfault
      refine .inl ⟨cause, place, ?_⟩
      simpa [hsame] using hcompile.symm

/-- A bracket that closes nothing, in front of a text without an end: which of them is reported
depends on the way the tokens are read, and the bracket comes first. -/
theorem compileWhole_agrees_broken :
    (∀ lexeme ∈ lexemes ") \"a".toList, lexeme.cls = .whole →
      lexeme.text.length ≤ Number.maxDigits) ∧
    ∃ cause place fault, compile "demo" ") \"a" = .error (.parse cause place) ∧
      compileWhole "demo" ") \"a" = .error fault ∧
      ∃ bad p, Lexeme.IsFirstBad bad (some "demo") ") \"a".toList p fault ∧
        Position.Before ⟨place.line, place.column⟩ p := by
  have hshort : ∀ lexeme ∈ lexemes ") \"a".toList, lexeme.cls = .whole →
      lexeme.text.length ≤ Number.maxDigits := by decide +kernel
  obtain ⟨cause, place, hcompile⟩ : ∃ cause place,
      compile "demo" ") \"a" = .error (.parse cause place) := ⟨_, _, by cbv⟩
  obtain ⟨fault, hwhole⟩ : ∃ fault, (tape (some "demo") ") \"a").whole = .error fault :=
    ⟨_, by cbv⟩
  obtain ⟨token, -, -, -, -, hbroken⟩ :=
    (compileWhole_agrees "demo" ") \"a" hshort).2.2.1 cause place hcompile
  exact ⟨hshort, cause, place, fault, hcompile, hbroken fault hwhole⟩

end TriggerEngine
