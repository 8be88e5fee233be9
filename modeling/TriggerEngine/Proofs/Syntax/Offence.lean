/-
**A complaint names the first token that is wrong.**

A script that is refused is refused at one of its tokens, and the complaint gives the place of that
token.  Two things make it the first one that is wrong.  What stands before it is the start of some
script that is accepted, so nothing before it was wrong; and every script that starts with the same
tokens, this one included, is refused at this token for the same reason, so nothing behind it could
have helped.

The first half needs room for one more level, since the shortest way to complete a script may be an
empty block or empty brackets; and neither half is said of the limit on levels itself.

Main definitions:

* `RefusedAt` — the reading of a script stops at one of its tokens.

Main results:

* `refused_at_first_offence` — both halves, for every row of tokens with an end.
-/

import TriggerEngine.Proofs.Syntax.Locality
import TriggerEngine.Proofs.Syntax.Correctness

set_option autoImplicit false

namespace TriggerEngine

open Cursor Parse

/-- The reading of `tokens` stops before the token with index `k` with a complaint about it, while
some levels are open. -/
def RefusedAt (file : String) (tokens : List Token) (k : Nat) (cause : ParseCause) (levels : Int) :
    Prop :=
  ∃ c c' : Cursor, Cursor.start file ⟨tokens, none⟩ = .ok c ∧
    Parse.program.runFrom c = (.error (.parse cause c'.place), c') ∧
    c'.left = tokens.drop k ∧ c'.nesting = levels

/-! ### The first token of a script -/

/-- A cursor on the first token of a row of tokens. -/
structure Cursor.Starts (c : Cursor) (file : String) (tokens : List Token) : Prop where
  start : Cursor.start file ⟨tokens, none⟩ = .ok c
  left : c.left = tokens
  within : c.Within 0 false
  file : c.file = file
  fault : c.fault = none
  loops : c.loops = 0

theorem Cursor.exists_starts (file : String) {tokens : List Token} (h : Ended tokens) :
    ∃ c : Cursor, c.Starts file tokens := by
  obtain ⟨token, rest, rfl⟩ := List.exists_cons_of_ne_nil h.ne_nil
  exact ⟨⟨token, [], rest, none, file, 0, 0⟩, rfl, rfl, ⟨h, rfl, rfl, Nat.zero_le _⟩, rfl, rfl, rfl⟩

theorem Cursor.Starts.program {c : Cursor} {file : String} {tokens : List Token}
    (h : c.Starts file tokens) : Tape.program file ⟨tokens, none⟩ = (Parse.program.runFrom c).1 := by
  rw [Tape.program, h.start]

theorem Cursor.Starts.refusedAt {c : Cursor} {file : String} {tokens : List Token} {k : Nat}
    {cause : ParseCause} {levels : Int} (hc : c.Starts file tokens) :
    RefusedAt file tokens k cause levels ↔ ∃ c' : Cursor,
      Parse.program.runFrom c = (.error (.parse cause c'.place), c') ∧ c'.left = tokens.drop k ∧
        c'.nesting = levels := by
  constructor
  · rintro ⟨c₀, c', hstart, h⟩
    obtain rfl : c = c₀ := Except.ok.inj (hc.start.symm.trans hstart)
    exact ⟨c', h⟩
  · rintro ⟨c', h⟩
    exact ⟨c, c', hc.start, h⟩

variable {file : String} {tokens tokens₂ : List Token} {k : Nat} {cause : ParseCause} {levels : Int}

theorem RefusedAt.lt_length (h : RefusedAt file tokens k cause levels) : k < tokens.length := by
  obtain ⟨_, c', -, -, hleft, -⟩ := h
  refine Nat.lt_of_not_le fun hle => c'.left_ne_nil ?_
  rw [hleft, List.drop_eq_nil_of_le hle]

/-! ### Every refusal is at a token -/

theorem exists_refusedAt (hended : Ended tokens) {fault : Fault}
    (h : Tape.program file ⟨tokens, none⟩ = .error fault) :
    ∃ k token cause place levels, RefusedAt file tokens k cause levels ∧
      tokens[k]? = some token ∧ fault = .parse cause place ∧ place.line = token.line ∧
      place.column = token.column := by
  obtain ⟨c, hc⟩ := Cursor.exists_starts file hended
  rw [hc.program] at h
  have hcomes := program_comes (complete_of_ended hc.within.ended)
  rcases hrun : Parse.program.runFrom c with ⟨result, c'⟩
  rw [hrun] at h hcomes
  cases hcomes with
  | done => cases h
  | met _ met =>
      rw [hc.fault] at met
      cases met
  | complained cause forward =>
      have hdrop : c'.left = tokens.drop (tokens.length - c'.left.length) := by
        rw [hc.left] at forward
        exact List.suffix_iff_eq_drop.1 forward
      refine ⟨_, c'.current, cause, c'.place, c'.nesting, hc.refusedAt.2 ⟨c', hrun, hdrop, rfl⟩, ?_,
        (Except.error.inj h).symm, rfl, rfl⟩
      rw [← List.head?_drop, ← hdrop]
      rfl

/-! ### What stands before can be completed -/

theorem Ended.not_eof_of_append {rest : List Token} (h : Ended (tokens ++ rest)) (hrest : rest ≠ []) :
    ∀ t ∈ tokens, t.is .eof = false := by
  induction tokens with
  | nil => exact List.forall_mem_nil _
  | cons t tokens ih =>
      have ht : t.is .eof = false := by
        refine Bool.eq_false_iff.2 fun heof => hrest ?_
        exact (List.append_eq_nil_iff.1 (Ended.eq_nil (show Ended (t :: (tokens ++ rest)) from h) heof)).2
      exact List.forall_mem_cons.2 ⟨ht, ih (Ended.tail (show Ended (t :: (tokens ++ rest)) from h) ht)⟩

theorem isLexed_eof : Item.eof.IsLexed :=
  Item.isLexed_of_head "" (by cbv)

theorem RefusedAt.exists_completion (hended : Ended tokens)
    (h : RefusedAt file tokens k cause levels) (hcause : cause ≠ .nesting)
    (hlevels : levels < maxNesting) :
    ∃ more program, (∀ t ∈ more, t.item.IsLexed) ∧ Ended (tokens.take k ++ more) ∧
      Tape.program file ⟨tokens.take k ++ more, none⟩ = .ok program := by
  obtain ⟨c, hc⟩ := Cursor.exists_starts file hended
  obtain ⟨c', hrun, hleft, rfl⟩ := hc.refusedAt.1 h
  obtain ⟨passed, more, d, hpassed, hmore, hyield, hfits⟩ :=
    program_viable hc.within ⟨cause, c'.place, hrun, hcause, hlevels⟩
  -- what was passed are the tokens before the one that is refused
  obtain rfl : tokens.take k = passed := by
    rw [hc.left, hleft] at hpassed
    exact List.append_cancel_right ((List.take_append_drop k tokens).trans hpassed)
  have hbody : ∀ t ∈ d.yield, t.is .eof = false := by
    rw [hyield]
    refine List.forall_mem_append.2 ⟨?_, fun t ht => (hmore t ht).not_eof⟩
    rw [← List.take_append_drop k tokens, ← hleft] at hended
    exact hended.not_eof_of_append c'.left_ne_nil
  have hended₂ : Ended (d.yield ++ [⟨.eof, 1, 1⟩]) := ⟨d.yield, _, rfl, rfl, hbody⟩
  obtain ⟨c₂, hc₂⟩ := Cursor.exists_starts file hended₂
  obtain ⟨c₂', hread⟩ := program_complete hc₂.within rfl d hfits hc₂.left
  have hrow : tokens.take k ++ (more ++ [⟨.eof, 1, 1⟩]) = d.yield ++ [⟨.eof, 1, 1⟩] := by
    rw [hyield, List.append_assoc]
  refine ⟨more ++ [⟨.eof, 1, 1⟩], d.meaning, ?_, by rwa [hrow], ?_⟩
  · exact List.forall_mem_append.2 ⟨fun t ht => (hmore t ht).lexed,
      List.forall_mem_singleton.2 isLexed_eof⟩
  · rw [hrow, hc₂.program, hread]

/-! ### What stands behind cannot help -/

theorem drop_eq_append (h : k ≤ (tokens.take (k + 1)).length) :
    tokens.drop k = (tokens.take (k + 1)).drop k ++ tokens.drop (k + 1) := by
  conv_lhs => rw [← List.take_append_drop (k + 1) tokens]
  exact List.drop_append_of_le_length h

theorem RefusedAt.of_take_eq (hended : Ended tokens) (hended₂ : Ended tokens₂)
    (h : RefusedAt file tokens k cause levels)
    (htake : tokens₂.take (k + 1) = tokens.take (k + 1)) :
    RefusedAt file tokens₂ k cause levels := by
  have hk := h.lt_length
  obtain ⟨c, hc⟩ := Cursor.exists_starts file hended
  obtain ⟨c₂, hc₂⟩ := Cursor.exists_starts file hended₂
  obtain ⟨c', hrun, hleft, rfl⟩ := hc.refusedAt.1 h
  have hshared : tokens.take (k + 1) ≠ [] := by
    intro hnil
    have hlen := congrArg List.length hnil
    rw [List.length_take, List.length_nil] at hlen
    omega
  have hagrees : Agrees (tokens.take (k + 1)) (tokens.drop (k + 1)) (tokens₂.drop (k + 1)) c c₂ :=
    ⟨hshared, by rw [hc.left, List.take_append_drop], by rw [hc₂.left, ← htake, List.take_append_drop],
      hc.within.ended, hc₂.within.ended, by rw [hc.file, hc₂.file], by rw [hc.fault, hc₂.fault],
      by rw [hc.within.nesting, hc₂.within.nesting], by rw [hc.loops, hc₂.loops]⟩
  have hlen : c'.left.length = (tokens.drop (k + 1)).length + 1 := by
    rw [hleft, List.length_drop, List.length_drop]
    omega
  have htied := program_tied hagrees
  rw [hrun] at htied
  generalize hrun₂ : Parse.program.runFrom c₂ = r₂ at htied
  cases htied with
  | loose settles =>
      rcases settles with hpast | ⟨_, _, _, _, hangs, _⟩
      · have hpast : c'.left.length ≤ (tokens.drop (k + 1)).length := hpast
        omega
      · exact hangs.elim
  | @together _ _ c₂' shared' agrees =>
      refine hc₂.refusedAt.2 ⟨c₂', ?_, ?_, agrees.nesting⟩
      · rw [hrun₂, agrees.place]
      · -- the shared part that is left is the token that is refused
        have hone : shared' = (tokens.take (k + 1)).drop k := by
          refine List.append_cancel_right ((agrees.left.symm.trans hleft).trans ?_)
          exact drop_eq_append (by rw [List.length_take]; omega)
        rw [agrees.left₂, hone, ← htake]
        exact (drop_eq_append (by rw [htake, List.length_take]; omega)).symm

/-- **A complaint names the first token that is wrong.**  A row of tokens with an end that is
refused is refused at one of its tokens, whose place the complaint gives.  If the complaint is not
about the number of levels and at most 31 levels are open, what stands before the token can be
completed to a row that is accepted, and every row that agrees up to and with the token is refused
at it. -/
theorem refused_at_first_offence (file : String) (tokens : List Token) (hended : Ended tokens) :
    (∀ fault, Tape.program file ⟨tokens, none⟩ = .error fault →
      ∃ k token cause place levels, RefusedAt file tokens k cause levels ∧
        tokens[k]? = some token ∧ fault = .parse cause place ∧ place.line = token.line ∧
        place.column = token.column) ∧
    ∀ k cause levels, RefusedAt file tokens k cause levels → cause ≠ .nesting → levels ≤ 31 →
      (∃ more program, (∀ t ∈ more, t.item.IsLexed) ∧ Ended (tokens.take k ++ more) ∧
        Tape.program file ⟨tokens.take k ++ more, none⟩ = .ok program) ∧
      ∀ tokens₂, Ended tokens₂ → tokens₂.take (k + 1) = tokens.take (k + 1) →
        RefusedAt file tokens₂ k cause levels := by
  refine ⟨fun fault h => exists_refusedAt hended h, fun k cause levels h hcause hlevels => ⟨?_, ?_⟩⟩
  · have hroom : levels < maxNesting := Int.lt_add_one_iff.2 hlevels
    exact h.exists_completion hended hcause hroom
  · intro tokens₂ hended₂ htake
    exact h.of_take_eq hended hended₂ htake

/-- The tokens of `if x { break }`: the word `break` is refused, since it stands in no loop,
whatever stands behind it; what stands before it can be completed. -/
theorem refused_at_break :
    let tokens : List Token := [⟨.keyword .ifWord, 1, 1⟩, ⟨.ident "x", 1, 4⟩, ⟨.symbol .lbrace, 1, 6⟩,
      ⟨.keyword .breakWord, 1, 8⟩, ⟨.symbol .rbrace, 1, 14⟩, ⟨.eof, 1, 15⟩]
    RefusedAt "loop" tokens 3 (.outsideLoop "break") 1 ∧
      (∃ more program, (∀ t ∈ more, t.item.IsLexed) ∧ Ended (tokens.take 3 ++ more) ∧
        Tape.program "loop" ⟨tokens.take 3 ++ more, none⟩ = .ok program) ∧
      ∀ tokens₂, Ended tokens₂ → tokens₂.take 4 = tokens.take 4 →
        RefusedAt "loop" tokens₂ 3 (.outsideLoop "break") 1 := by
  intro tokens
  have hended : Ended tokens := ⟨tokens.dropLast, ⟨.eof, 1, 15⟩, rfl, rfl, by decide⟩
  have hrefused : RefusedAt "loop" tokens 3 (.outsideLoop "break") 1 := by
    refine ⟨_, ⟨⟨.keyword .breakWord, 1, 8⟩, [], tokens.drop 4, none, "loop", 1, 0⟩, rfl, ?_, rfl,
      rfl⟩
    cbv
  exact ⟨hrefused, (refused_at_first_offence "loop" tokens hended).2 3 _ 1 hrefused (by simp)
    (by decide)⟩

end TriggerEngine
