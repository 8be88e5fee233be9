/-
**Looking ahead is transparent.**

A cursor keeps the tokens that it has looked at in a buffer.  Who uses the cursor cannot tell: in
whatever order tokens are looked at, taken, refused and passed, the current token, the buffer and
the unread tokens together are what the taken ones leave of the tape, and every reply depends on
them alone.

Behind the end of the script may lie anything, also a fault.  It stays where it is and is in no
reply, so nothing is ever asked for behind the end.

Main definitions:

* `Cursor.Move`, `Cursor.after` — what is asked of a cursor, and where a row of moves brings it;
* `Cursor.Move.reply` — the reply to a move, told from the tokens that are left;
* `Cursor.eaten` — the tokens that a row of moves has taken.

Main results:

* `Cursor.Move.step` — one move;
* `Cursor.trails_after` — a row of moves;
* `lookahead_transparent` — the replies after any row of moves.
-/

import TriggerEngine.Proofs.Syntax.Complaint

set_option autoImplicit false

namespace TriggerEngine

open Parse

namespace Cursor

/-- What is asked of a cursor. -/
inductive Move where
  /-- To look at the token `between + 1` places behind the current one. -/
  | peek (between : Nat)
  /-- To look for the first token that does not end a line. -/
  | significant
  /-- To take a token of a kind. -/
  | eat (kind : Kind)
  /-- To pass what does nothing but end a statement. -/
  | skip

/-- The reading that makes a move, with the token it comes to. -/
def Move.reading : Move → Parse (Option Token)
  | .peek between => do return some (← Parse.peek (between + 1))
  | .significant => do return some (← Parse.significant)
  | .eat kind => do return some (← Parse.eat kind)
  | .skip => do
    skipSeparators
    return none

/-- The reply to a move from `current` with the tokens `later` behind it, on a tape that ends with
`stop`. -/
def Move.reply (file : String) (stop current : Token) (later : List Token) :
    Move → Except Fault (Option Token)
  | .peek between => .ok (some (later.getD between stop))
  | .significant => .ok ((current :: later).dropWhile Token.isLineEnd).head?
  | .eat kind =>
    if current.is kind then .ok (some current)
    else .error (.parse (.expected kind.wanted current.item.describe)
      ⟨current.line, current.column, some file⟩)
  | .skip => .ok none

/-- The tokens that a move takes from the tape.  Taking the end of the script leaves it there. -/
def Move.eaten (c : Cursor) : Move → List Token
  | .peek _ | .significant => []
  | .eat kind =>
    match ((Parse.eat kind).runFrom c).1 with
    | .ok token => if token.is .eof then [] else [token]
    | .error _ => []
  | .skip => c.left.takeWhile isSeparator

/-- The cursor after a row of moves; one that is refused leaves it for the next. -/
def after (c : Cursor) : List Move → Cursor
  | [] => c
  | move :: moves => after (move.reading.runFrom c).2 moves

/-- The tokens that a row of moves takes, in their order. -/
def eaten (c : Cursor) : List Move → List Token
  | [] => []
  | move :: moves => move.eaten c ++ eaten (move.reading.runFrom c).2 moves

/-! ### One move -/

/-- From `c` to `c'` the cursor has passed `tokens`, and what lies behind the tape was not asked
for. -/
structure Trails (c : Cursor) (tokens : List Token) (c' : Cursor) : Prop where
  left : c.left = tokens ++ c'.left
  fault : c'.fault = c.fault
  file : c'.file = c.file

variable {c c' c'' : Cursor} {tokens more : List Token} {stop : Token}

namespace Trails

theorem refl (c : Cursor) : c.Trails [] c := ⟨rfl, rfl, rfl⟩

theorem trans (h : c.Trails tokens c') (h' : c'.Trails more c'') :
    c.Trails (tokens ++ more) c'' where
  left := by rw [h.left, h'.left, List.append_assoc]
  fault := h'.fault.trans h.fault
  file := h'.file.trans h.file

theorem of_comes {α : Type} {a : α} {least : Nat}
    (h : c.Comes least ((.ok a, c') : Except Fault α × Cursor)) (hpass : c.Passes tokens c') :
    c.Trails tokens c' :=
  ⟨hpass.left, h.of_ok.2.1, h.of_ok.2.2.1⟩

theorem getLast? (h : c.Trails tokens c') : c'.left.getLast? = c.left.getLast? := by
  rw [h.left, List.getLast?_append_of_ne_nil _ c'.left_ne_nil]

theorem ended (h : c.Trails tokens c') (hc : Ended c.left) : Ended c'.left :=
  Ended.of_append (h.left ▸ hc) c'.left_ne_nil

end Trails

theorem peek_beyond {n : Nat} (he : Ended c.left) (hstop : c.left.getLast? = some stop)
    (hnone : (c.ahead ++ c.rest)[n]? = none) :
    ∃ c', (peek (n + 1)).runFrom c = (.ok stop, c') ∧ c.Passes [] c' := by
  cases hcur : c.current.is .eof with
  | true =>
      have hnil := Ended.eq_nil (show Ended (c.current :: (c.ahead ++ c.rest)) from he) hcur
      obtain rfl : c.current = stop := by simpa [left, hnil] using hstop
      refine ⟨c, ?_, .refl c⟩
      rw [peek, runFrom_bind_get, hcur]
      rfl
  | false =>
      obtain ⟨c', hfill, hpass, hfar⟩ := fill_spec ((n + 1 : Int) - c.ahead.length).toNat he hcur
      have hsame : c.ahead ++ c.rest = c'.ahead ++ c'.rest := (List.cons.inj hpass.left).2
      have hlen := List.getElem?_eq_none_iff.1 hnone
      rw [hsame, List.length_append] at hlen
      -- the buffer could not be filled as far as was asked for, so it holds all that is left
      have hrest : c'.rest = [] := hfar.resolve_left (by omega)
      have hahead : c'.ahead ≠ [] := by
        have htail := Ended.tail (show Ended (c.current :: (c.ahead ++ c.rest)) from he) hcur
        rw [hsame, hrest, List.append_nil] at htail
        exact htail.ne_nil
      have hpos := List.length_pos_iff.2 hahead
      obtain ⟨token, hpeek, htoken⟩ := peek_of_fill hcur hfill hpos
      rw [Nat.min_eq_right (by omega), ← List.getLast?_eq_getElem?] at htoken
      rw [hpass.left, List.nil_append, left, hrest, List.append_nil,
        List.getLast?_cons_of_ne_nil hahead, htoken] at hstop
      obtain rfl : token = stop := by simpa using hstop
      exact ⟨c', hpeek, hpass⟩

theorem peek_reply (n : Nat) (he : Ended c.left) (hstop : c.left.getLast? = some stop) :
    ∃ c', (peek (n + 1)).runFrom c = (.ok ((c.ahead ++ c.rest).getD n stop), c') ∧
      c.Passes [] c' := by
  rw [List.getD_eq_getElem?_getD]
  cases htoken : (c.ahead ++ c.rest)[n]? with
  | some token => exact peek_spec he htoken
  | none => exact peek_beyond he hstop htoken

theorem eat_refused {kind : Kind} (his : c.current.is kind = false) :
    (eat kind).runFrom c =
      (.error (.parse (.expected kind.wanted c.current.item.describe) c.place), c) := by
  rw [eat, runFrom_bind_current, his]
  rfl

theorem eat_stop {kind : Kind} (his : c.current.is kind = true)
    (hstop : c.current.is .eof = true) : (eat kind).runFrom c = (.ok c.current, c) := by
  rw [eat, runFrom_bind_current, his, hstop]
  rfl

theorem eat_taken {kind : Kind} (he : Ended c.left) (his : c.current.is kind = true)
    (hne : c.current.is .eof = false) :
    ∃ c', (eat kind).runFrom c = (.ok c.current, c') ∧ c.Trails [c.current] c' := by
  obtain ⟨c', hadv, hpass⟩ := advance_spec he hne
  refine ⟨c', ?_, .of_comes (hadv ▸ advance_comes (fun _ => he) hne) hpass⟩
  rw [eat, runFrom_bind_current, his, hne]
  exact bind_of_ok hadv

/-- **One move.**  Its reply is told from the tokens that are left, and it takes the first of
them. -/
theorem Move.step (move : Move) (he : Ended c.left) (hstop : c.left.getLast? = some stop) :
    (move.reading.runFrom c).1 = move.reply c.file stop c.current (c.ahead ++ c.rest) ∧
      c.Trails (move.eaten c) (move.reading.runFrom c).2 := by
  have hc : c.Complete := fun _ => he
  cases move with
  | peek n =>
      obtain ⟨c', hpeek, hpass⟩ := peek_reply n he hstop
      rw [reading, bind_of_ok hpeek]
      exact ⟨rfl, .of_comes (hpeek ▸ peek_ends n c hc) hpass⟩
  | significant =>
      obtain ⟨c', found, hrun, hpass, hfound⟩ := significant_spec he
      rw [reading, bind_of_ok hrun]
      exact ⟨congrArg Except.ok hfound.symm, .of_comes (hrun ▸ significant_ends c hc) hpass⟩
  | skip =>
      obtain ⟨c', hskip, hpass⟩ := skipSeparators_spec he
      rw [reading, bind_of_ok hskip]
      exact ⟨rfl, .of_comes (hskip ▸ skipSeparators_ends c hc) hpass⟩
  | eat kind =>
      cases his : c.current.is kind with
      | false =>
          simp only [reading, eaten, reply, runFrom_bind, eat_refused his, his]
          exact ⟨rfl, .refl c⟩
      | true =>
          cases hcur : c.current.is .eof with
          | true =>
              simp only [reading, eaten, reply, runFrom_bind, eat_stop his hcur, his, hcur]
              exact ⟨rfl, .refl c⟩
          | false =>
              obtain ⟨c', heat, htrail⟩ := eat_taken he his hcur
              simp only [reading, eaten, reply, runFrom_bind, heat, his, hcur]
              exact ⟨rfl, htrail⟩

/-! ### A row of moves -/

theorem trails_after (moves : List Move) (he : Ended c.left) :
    c.Trails (c.eaten moves) (c.after moves) := by
  induction moves generalizing c with
  | nil => exact .refl c
  | cons move moves ih =>
      have hstop := List.getLast?_eq_some_getLast c.left_ne_nil
      have hmove := (move.step he hstop).2
      exact hmove.trans (ih (hmove.ended he))

end Cursor

/-- **Looking ahead is transparent.**  After any row of moves on a tape with the end of the script
at its end only, the current token, the buffer and the unread tokens are what the taken tokens leave
of the tape; what lies behind the tape is untouched; and whatever is asked next is answered as the
tokens that are left tell, with the end of the script where there are fewer than were looked
past. -/
theorem lookahead_transparent (file : String) (body : List Token) (stop : Token)
    (behind : Option Fault) (hstop : stop.is .eof = true) (hbody : ∀ t ∈ body, t.is .eof = false) :
    ∃ start, Cursor.start file ⟨body ++ [stop], behind⟩ = .ok start ∧
      ∀ moves : List Cursor.Move, ∃ c, start.after moves = c ∧
        body ++ [stop] = start.eaten moves ++ (c.current :: (c.ahead ++ c.rest)) ∧
        c.fault = behind ∧
        ∀ move : Cursor.Move, (move.reading.runFrom c).1 =
          move.reply file stop c.current (c.ahead ++ c.rest) := by
  have hended : Ended (body ++ [stop]) := ⟨body, stop, rfl, hstop, hbody⟩
  obtain ⟨start, hstart, hleft, hfault, hfile⟩ : ∃ start,
      Cursor.start file ⟨body ++ [stop], behind⟩ = .ok start ∧ start.left = body ++ [stop] ∧
        start.fault = behind ∧ start.file = file := by
    cases body with
    | nil => exact ⟨_, rfl, rfl, rfl, rfl⟩
    | cons token body => exact ⟨_, rfl, rfl, rfl, rfl⟩
  refine ⟨start, hstart, fun moves => ⟨_, rfl, ?_⟩⟩
  have htrail := start.trails_after moves (hleft ▸ hended)
  refine ⟨hleft ▸ htrail.left, htrail.fault.trans hfault, fun move => ?_⟩
  have hlast : (start.after moves).left.getLast? = some stop := by
    rw [htrail.getLast?, hleft, List.getLast?_concat]
  have hreply := (move.step (htrail.ended (hleft ▸ hended)) hlast).1
  rwa [htrail.file, hfile] at hreply

/-- Two words on two lines: after the first is taken, a second one is refused and the end of the
line passed, the second word and the end of the script are left. -/
theorem lookahead_transparent_two_words :
    ∃ start, Cursor.start "lines" ⟨[⟨.ident "a", 1, 1⟩, ⟨.newline, 1, 2⟩, ⟨.symbol .semi, 2, 1⟩,
        ⟨.ident "b", 2, 2⟩] ++ [⟨.eof, 2, 3⟩], some (.plain .exhausted "")⟩ = .ok start ∧
      ∃ c, start.after [.peek 7, .eat .ident, .eat .ident, .significant, .skip] = c ∧
        start.eaten [.peek 7, .eat .ident, .eat .ident, .significant, .skip] ++
          [⟨.ident "b", 2, 2⟩, ⟨.eof, 2, 3⟩] = [⟨.ident "a", 1, 1⟩, ⟨.newline, 1, 2⟩,
            ⟨.symbol .semi, 2, 1⟩, ⟨.ident "b", 2, 2⟩, ⟨.eof, 2, 3⟩] ∧
        c.fault = some (.plain .exhausted "") ∧
        ((Cursor.Move.peek 4).reading.runFrom c).1 = .ok (some ⟨.eof, 2, 3⟩) := by
  obtain ⟨start, hstart, hall⟩ := lookahead_transparent "lines" [⟨.ident "a", 1, 1⟩,
    ⟨.newline, 1, 2⟩, ⟨.symbol .semi, 2, 1⟩, ⟨.ident "b", 2, 2⟩] ⟨.eof, 2, 3⟩
    (some (.plain .exhausted "")) (by decide) (by decide)
  obtain ⟨c, hafter, htape, hbehind, hreply⟩ :=
    hall [.peek 7, .eat .ident, .eat .ident, .significant, .skip]
  cases hstart
  cases hafter
  exact ⟨_, rfl, _, rfl, htape.symm, hbehind, hreply (.peek 4)⟩

end TriggerEngine
