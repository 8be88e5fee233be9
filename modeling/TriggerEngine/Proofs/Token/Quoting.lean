/-
**Every text has a literal.**

A text is written between two quotes of one sort, with a backslash before each backslash and each
quote of that sort, and with the letter of the line feed for each line feed.  Two things have to
agree about the backslashes in it: where the literal ends, and what it stands for.  Both go through
the body from the left and take a backslash together with what is behind it; and the body is made of
pieces that each end where such a pair ends.  So a literal ends at its own last quote, whatever
stands behind it, and it stands for the text that was written.

Main definitions:

* `Quote.escape`, `Quote.literal` — how characters and texts are written between quotes;
* `literalTokens` — the tokens of literals one behind the other.

Main results:

* `bodyLength_escape`, `unescape_escape` — the pieces of a body, as they are measured and as they
  are read;
* `tape_literals` — **literals one behind the other are read as their texts**.
-/

import TriggerEngine.Proofs.Token.Spelling

set_option autoImplicit false

namespace TriggerEngine

/-! ### Writing texts -/

/-- The quotes. -/
inductive Quote where
  | single | double
  deriving DecidableEq, Repr

namespace Quote

/-- How a quote is written. -/
def mark : Quote → Char
  | .single => '\''
  | .double => '"'

/-- How a character is written between quotes. -/
def escape (q : Quote) (c : Char) : List Char :=
  if c = '\\' ∨ c = q.mark then ['\\', c] else if c = '\n' then ['\\', 'n'] else [c]

/-- The characters of a text as they are written between quotes. -/
def body (q : Quote) (cs : List Char) : List Char :=
  cs.flatMap q.escape

/-- The literal of a text. -/
def literal (q : Quote) (s : String) : String :=
  String.ofList (q.mark :: (q.body s.toList ++ [q.mark]))

example : double.literal "a\\'\"\n" = "\"a\\\\'\\\"\\n\"" := by decide

theorem escape_cases (q : Quote) (c : Char) :
    (∃ d, q.escape c = ['\\', d] ∧ d ≠ '\n' ∧ Literal.escaped d = c) ∨
    q.escape c = [c] ∧ c ≠ q.mark ∧ c ≠ '\\' ∧ c ≠ '\n' := by
  unfold escape
  split
  · rename_i hc
    refine .inl ⟨c, rfl, ?_⟩
    rcases hc with rfl | rfl
    · decide
    · cases q <;> decide
  · rename_i hc
    split
    · rename_i hfeed
      exact .inl ⟨'n', rfl, by decide, hfeed.symm⟩
    · rename_i hfeed
      exact .inr ⟨rfl, fun h => hc (.inr h), fun h => hc (.inl h), hfeed⟩

end Quote

/-! ### Reading them again -/

section Bodies

variable (q : Quote)

theorem bodyLength_escape (c : Char) (rest : List Char) :
    Literal.bodyLength q.mark (q.escape c ++ rest) =
      (q.escape c).length + Literal.bodyLength q.mark rest := by
  rcases q.escape_cases c with ⟨d, hd, hfeed, -⟩ | ⟨hc, hmark, hback, hfeed⟩
  · simp [hd, Literal.bodyLength, hfeed, Nat.add_comm]
  · rw [hc, List.singleton_append, Literal.bodyLength]
    · simp [hmark, hback, hfeed, Nat.add_comm]
    · exact fun _ _ h => absurd h hback

theorem unescape_escape (c : Char) (rest : List Char) :
    Literal.unescape (q.escape c ++ rest) = c :: Literal.unescape rest := by
  rcases q.escape_cases c with ⟨d, hd, hfeed, hread⟩ | ⟨hc, -, hback, -⟩
  · simp [hd, Literal.unescape, hfeed, hread]
  · rw [hc, List.singleton_append, Literal.unescape]
    exact fun _ _ h => absurd h hback

theorem bodyLength_body (cs : List Char) :
    Literal.bodyLength q.mark (q.body cs ++ [q.mark]) = (q.body cs).length := by
  induction cs with
  | nil => cases q <;> rfl
  | cons c cs ih =>
      have hcons : q.body (c :: cs) = q.escape c ++ q.body cs := List.flatMap_cons
      rw [hcons, List.append_assoc, bodyLength_escape, ih, List.length_append]

theorem unescape_body (cs : List Char) : Literal.unescape (q.body cs) = cs := by
  induction cs with
  | nil => rfl
  | cons c cs ih =>
      have hcons : q.body (c :: cs) = q.escape c ++ q.body cs := List.flatMap_cons
      rw [hcons, unescape_escape, ih]

theorem spelled_literal (s : String) : Spelled .string (q.literal s).toList := by
  rw [Quote.literal, String.toList_ofList]
  exact .string (by cases q <;> decide) (bodyLength_body q s.toList)

theorem decode_literal (s : String) : Literal.decode (q.literal s).toList = s.toList := by
  rw [Quote.literal, String.toList_ofList, Literal.decode, List.drop_one, List.tail_cons,
    List.dropLast_concat, unescape_body]

theorem Position.past_literal (line column : Nat) (s : String) :
    Position.past ⟨line, column⟩ (q.literal s).toList =
      ⟨line, column + (q.literal s).length⟩ := by
  have hfeed : '\n' ∉ (q.literal s).toList := fun hmem => by
    rcases (spelled_literal q s).of_newline_mem hmem with h | h <;> simp at h
  rw [← String.length_toList, past_of_feedless _ hfeed]

end Bodies

/-! ### Literals one behind the other -/

/-- The text of literals one behind the other. -/
def literalText (row : List (Quote × String)) : String :=
  String.join (row.map fun entry => entry.1.literal entry.2)

/-- Their tokens, from a column on. -/
def literalTokens (column : Nat) : List (Quote × String) → List Token
  | [] => [⟨.eof, 1, column⟩]
  | (q, s) :: row => ⟨.string s, 1, column⟩ :: literalTokens (column + (q.literal s).length) row

theorem tiles_literals (before : Option Char) (row : List (Quote × String)) :
    Tiles before (literalText row).toList
      (row.map fun entry => ⟨.string, (entry.1.literal entry.2).toList⟩) := by
  induction row generalizing before with
  | nil => exact .nil
  | cons entry row ih =>
      rw [literalText, List.map_cons, String.join_cons, String.toList_append]
      exact .cons_spelled before (spelled_literal entry.1 entry.2) rfl (ih _)

theorem tapeFrom_literals (file : Option String) (column : Nat) (row : List (Quote × String)) :
    tapeFrom file ⟨1, column⟩ 0
      (row.map fun entry => ⟨.string, (entry.1.literal entry.2).toList⟩) =
      ⟨literalTokens column row, none⟩ := by
  induction row generalizing column with
  | nil => rfl
  | cons entry row ih =>
      obtain ⟨q, s⟩ := entry
      simp only [List.map_cons, tapeFrom, Lexeme.read, Lexeme.bracketsAfter, decode_literal,
        String.ofList_toList, Position.past_literal, ih, literalTokens]

/-- **Literals one behind the other are read as their texts**, each at its column, and nothing
else is. -/
theorem tape_literals (file : Option String) (row : List (Quote × String)) :
    tape file (literalText row) = ⟨literalTokens 1 row, none⟩ := by
  rw [tape, (tiles_lexemes _).unique (tiles_literals none row)]
  exact tapeFrom_literals file 1 row

/-- **Every text has a literal**: read alone it is that text, and read in front of another literal
it is that text as well. -/
theorem tape_literal (file : Option String) (q : Quote) (s : String) :
    (tape file (q.literal s)).whole =
        .ok [⟨.string s, 1, 1⟩, ⟨.eof, 1, 1 + (q.literal s).length⟩] ∧
      ∀ (q' : Quote) (s' : String), (tape file (q.literal s ++ q'.literal s')).whole =
        .ok [⟨.string s, 1, 1⟩, ⟨.string s', 1, 1 + (q.literal s).length⟩,
          ⟨.eof, 1, 1 + (q.literal s).length + (q'.literal s').length⟩] := by
  refine ⟨?_, fun q' s' => ?_⟩
  · simpa [literalText, literalTokens, String.join_cons, Tape.whole] using
      congrArg Tape.whole (tape_literals file [(q, s)])
  · simpa [literalText, literalTokens, String.join_cons, Tape.whole] using
      congrArg Tape.whole (tape_literals file [(q, s), (q', s')])

end TriggerEngine
