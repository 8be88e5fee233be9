/-
**How a cursor moves.**

What the steps of a cursor do, in terms of the tokens that it has left.  Looking ahead moves tokens
into the buffer and leaves them left; taking a token passes it.  A reading that succeeds passes a
row of tokens and has closed all levels and loops that it opened, which is what
`Cursor.Passes` says, so readings in a row pass the rows of tokens one behind the other.

A tape that was read to its end has the end of the script as its last token and nowhere else.  On
such a tape looking ahead never fails, and skipping stops by itself.

Main definitions:

* `Ended` — rows of tokens with the end of the script at their end only;
* `Cursor.left`, `Cursor.Passes` — the tokens a cursor has left, and passing some of them.

Main results:

* `Parse.bind_eq_ok`, `Parse.bind_of_ok` — readings one after the other;
* `Parse.significant_spec`, `Parse.skipF_spec` — looking behind the ends of lines, and skipping.
-/

import TriggerEngine.Proofs.Syntax.Derivation

set_option autoImplicit false

namespace TriggerEngine

/-! ### Rows of tokens with an end -/

/-- Whether a token is the end of a line. -/
def Token.isLineEnd (token : Token) : Bool :=
  token.is .newline

theorem Token.is_of_ne {token : Token} {kind other : Kind} (h : token.is kind = true)
    (hne : kind ≠ other) : token.is other = false := by
  have hkind : token.item.kind = kind := by simpa [Token.is, Item.is] using h
  simpa [Token.is, Item.is, hkind] using hne

/-- The end of the script is the last token and no other one. -/
def Ended (tokens : List Token) : Prop :=
  ∃ body stop, tokens = body ++ [stop] ∧ stop.is .eof = true ∧ ∀ t ∈ body, t.is .eof = false

namespace Ended

theorem ne_nil {tokens : List Token} (h : Ended tokens) : tokens ≠ [] := by
  obtain ⟨body, stop, rfl, -, -⟩ := h
  simp

theorem of_append {tokens rest : List Token} (h : Ended (tokens ++ rest)) (hrest : rest ≠ []) :
    Ended rest := by
  obtain ⟨body, stop, heq, hstop, hbody⟩ := h
  obtain ⟨init, last, rfl⟩ : ∃ init last, rest = init ++ [last] :=
    ⟨rest.dropLast, rest.getLast hrest, (List.dropLast_concat_getLast hrest).symm⟩
  rw [← List.append_assoc] at heq
  obtain ⟨rfl, hlast⟩ := List.append_inj' heq rfl
  obtain rfl : last = stop := by simpa using hlast
  exact ⟨init, last, rfl, hstop, fun t ht => hbody t (List.mem_append_right _ ht)⟩

theorem tail {token : Token} {rest : List Token} (h : Ended (token :: rest))
    (htoken : token.is .eof = false) : Ended rest := by
  refine of_append (show Ended ([token] ++ rest) from h) ?_
  rintro rfl
  obtain ⟨body, stop, heq, hstop, -⟩ := h
  cases body with
  | nil =>
      obtain rfl : token = stop := by simpa using heq
      rw [htoken] at hstop
      exact Bool.noConfusion hstop
  | cons t body => simp at heq

theorem eq_nil {token : Token} {rest : List Token} (h : Ended (token :: rest))
    (htoken : token.is .eof = true) : rest = [] := by
  obtain ⟨body, stop, heq, -, hbody⟩ := h
  cases body with
  | nil => exact (List.cons.inj heq).2
  | cons t body =>
      obtain ⟨rfl, -⟩ : token = t ∧ rest = body ++ [stop] := by simpa using heq
      rw [hbody token List.mem_cons_self] at htoken
      exact Bool.noConfusion htoken

end Ended

/-! ### Passing tokens -/

namespace Cursor

/-- The tokens that a cursor has left, the current one first. -/
def left (c : Cursor) : List Token :=
  c.current :: (c.ahead ++ c.rest)

theorem left_ne_nil (c : Cursor) : c.left ≠ [] := by
  simp [left]

theorem length_left (c : Cursor) : c.left.length = c.remaining + 1 := by
  simp [left, remaining]

theorem left_eq_cons (c : Cursor) : ∃ rest, c.left = c.current :: rest := ⟨_, rfl⟩

theorem current_of_left {c : Cursor} {token : Token} {rest : List Token}
    (h : c.left = token :: rest) : c.current = token :=
  (List.cons.inj h).1

/-- From `c` to `c'` the cursor has passed `tokens`; the levels and loops that are open are the
same. -/
structure Passes (c : Cursor) (tokens : List Token) (c' : Cursor) : Prop where
  left : c.left = tokens ++ c'.left
  nesting : c'.nesting = c.nesting
  loops : c'.loops = c.loops

namespace Passes

variable {c c' c'' : Cursor} {tokens more rest : List Token}

theorem refl (c : Cursor) : c.Passes [] c := ⟨rfl, rfl, rfl⟩

theorem trans (h : c.Passes tokens c') (h' : c'.Passes more c'') :
    c.Passes (tokens ++ more) c'' where
  left := by rw [h.left, h'.left, List.append_assoc]
  nesting := h'.nesting.trans h.nesting
  loops := h'.loops.trans h.loops

theorem cons {token : Token} (h : c.Passes [token] c') (h' : c'.Passes more c'') :
    c.Passes (token :: more) c'' :=
  h.trans h'

theorem nil_trans (h : c.Passes [] c') (h' : c'.Passes more c'') : c.Passes more c'' :=
  h.trans h'

theorem left_eq (h : c.Passes tokens c') (hc : c.left = tokens ++ rest) : c'.left = rest :=
  List.append_cancel_left (h.left.symm.trans hc)

theorem ended (h : c.Passes tokens c') (hc : Ended c.left) : Ended c'.left :=
  Ended.of_append (h.left ▸ hc) c'.left_ne_nil

theorem nested (h : Cursor.Passes { c with nesting := c.nesting + 1 } tokens c') :
    c.Passes tokens { c' with nesting := c'.nesting - 1 } where
  left := h.left
  nesting := by
    have hn : c'.nesting = c.nesting + 1 := h.nesting
    show c'.nesting - 1 = c.nesting
    omega
  loops := h.loops

theorem looped (h : Cursor.Passes { c with loops := c.loops + 1 } tokens c') :
    c.Passes tokens { c' with loops := c'.loops - 1 } where
  left := h.left
  nesting := h.nesting
  loops := by
    have hl : c'.loops = c.loops + 1 := h.loops
    show c'.loops - 1 = c.loops
    omega

end Passes

/-- The cursor reads a tape with an end, has `opened` levels open, and stands inside a loop or
not. -/
structure Within (c : Cursor) (opened : Nat) (looped : Bool) : Prop where
  ended : Ended c.left
  nesting : c.nesting = opened
  loops : decide (0 < c.loops) = looped
  room : opened ≤ maxNesting

namespace Within

variable {c c' : Cursor} {tokens : List Token} {n : Nat} {looped : Bool}

theorem passes (h : c.Within n looped) (hp : c.Passes tokens c') : c'.Within n looped where
  ended := hp.ended h.ended
  nesting := hp.nesting.trans h.nesting
  loops := by rw [hp.loops, h.loops]
  room := h.room

theorem enter (h : c.Within n looped) (hn : n < maxNesting) :
    Cursor.Within { c with nesting := c.nesting + 1 } (n + 1) looped where
  ended := h.ended
  nesting := by
    show c.nesting + 1 = ((n + 1 : Nat) : Int)
    rw [h.nesting, Int.natCast_add, Int.natCast_one]
  loops := h.loops
  room := hn

theorem inLoop (h : c.Within n looped) :
    Cursor.Within { c with loops := c.loops + 1 } n true where
  ended := h.ended
  nesting := h.nesting
  loops := decide_eq_true (Nat.succ_pos _)
  room := h.room

end Within

end Cursor

namespace Parse

open Cursor

variable {α β : Type} {c c' c'' : Cursor}

/-! ### Readings one after the other -/

theorem runFrom_bind (p : Parse α) (k : α → Parse β) (c : Cursor) :
    (p >>= k).runFrom c = match p.runFrom c with
      | (.ok a, c) => (k a).runFrom c
      | (.error fault, c) => (.error fault, c) := by
  show (ExceptT.bind p k).run c = _
  simp only [ExceptT.bind, ExceptT.run, ExceptT.mk, bind, StateT.bind, runFrom]
  rcases h : p c with ⟨result, c₁⟩
  cases result with
  | ok a => rfl
  | error fault => rfl

theorem runFrom_pure (a : α) (c : Cursor) : (pure a : Parse α).runFrom c = (.ok a, c) := rfl

theorem bind_of_ok {p : Parse α} {k : α → Parse β} {a : α}
    (h : p.runFrom c = (.ok a, c')) : (p >>= k).runFrom c = (k a).runFrom c' := by
  rw [runFrom_bind, h]

theorem bind_eq_ok {p : Parse α} {k : α → Parse β} {b : β}
    (h : (p >>= k).runFrom c = (.ok b, c'')) :
    ∃ a c', p.runFrom c = (.ok a, c') ∧ (k a).runFrom c' = (.ok b, c'') := by
  rw [runFrom_bind] at h
  rcases hp : p.runFrom c with ⟨result, c'⟩
  rw [hp] at h
  cases result with
  | ok a => exact ⟨a, c', rfl, h⟩
  | error fault => simp at h

theorem pure_eq_ok {a b : α} (h : (pure a : Parse α).runFrom c = (.ok b, c')) :
    a = b ∧ c = c' := by
  simpa [runFrom_pure] using h

/-! ### Looking -/

@[simp] theorem runFrom_bind_pure (a : α) (k : α → Parse β) (c : Cursor) :
    (pure a >>= k).runFrom c = (k a).runFrom c := rfl

@[simp] theorem runFrom_bind_get (k : Cursor → Parse β) (c : Cursor) :
    (get >>= k).runFrom c = (k c).runFrom c := rfl

@[simp] theorem runFrom_bind_current (k : Token → Parse β) (c : Cursor) :
    (current >>= k).runFrom c = (k c.current).runFrom c := rfl

@[simp] theorem runFrom_bind_at (kind : Kind) (k : Bool → Parse β) (c : Cursor) :
    (at? kind >>= k).runFrom c = (k (c.current.is kind)).runFrom c := rfl

@[simp] theorem runFrom_bind_atSymbol (s : Symbol) (k : Bool → Parse β) (c : Cursor) :
    (atSymbol s >>= k).runFrom c = (k (c.current.is (.symbol s))).runFrom c := rfl

@[simp] theorem runFrom_bind_atKeyword (word : Keyword) (k : Bool → Parse β) (c : Cursor) :
    (atKeyword word >>= k).runFrom c = (k (c.current.is (.keyword word))).runFrom c := rfl

theorem complain_ne_ok {cause : ParseCause} {a : α} :
    (complain cause : Parse α).runFrom c ≠ (.ok a, c') := by
  intro h
  cases (Prod.mk.inj h).1

theorem expected_ne_ok {wanted : String} {a : α} :
    (expected wanted : Parse α).runFrom c ≠ (.ok a, c') := by
  intro h
  cases (Prod.mk.inj h).1

theorem rest_eq_nil (he : Ended c.left) (hlast : c.ahead.getLast?.any (·.is .eof) = true) :
    c.rest = [] := by
  obtain ⟨stop, hstop, heof⟩ := (Option.any_eq_true _ _).1 hlast
  obtain ⟨init, hinit⟩ := List.getLast?_eq_some_iff.1 hstop
  have hleft : c.left = (c.current :: init) ++ (stop :: c.rest) := by
    simp [left, hinit]
  rw [hleft] at he
  exact (he.of_append (List.cons_ne_nil _ _)).eq_nil heof

theorem rest_ne_nil (he : Ended c.left) (hc : c.current.is .eof = false)
    (hlast : ¬c.ahead.getLast?.any (·.is .eof) = true) : c.rest ≠ [] := by
  intro hrest
  obtain ⟨body, stop, heq, heof, -⟩ := he
  have hstop : (c.current :: c.ahead).getLast? = some stop := by
    rw [left, hrest, List.append_nil] at heq
    rw [heq, List.getLast?_concat]
  cases hahead : c.ahead with
  | nil =>
      rw [hahead] at hstop
      obtain rfl : c.current = stop := by simpa using hstop
      rw [hc] at heof
      exact Bool.noConfusion heof
  | cons t ahead =>
      rw [hahead, List.getLast?_cons_cons, ← hahead] at hstop
      exact hlast ((Option.any_eq_true _ _).2 ⟨stop, hstop, heof⟩)

theorem fill_spec (count : Nat) (he : Ended c.left) (hc : c.current.is .eof = false) :
    ∃ c', fill count c = (.ok (), c') ∧ c.Passes [] c' ∧
      (count + c.ahead.length ≤ c'.ahead.length ∨ c'.rest = []) := by
  induction count generalizing c with
  | zero => exact ⟨c, rfl, .refl c, .inl (by omega)⟩
  | succ count ih =>
      rw [fill]
      by_cases hlast : c.ahead.getLast?.any (·.is .eof) = true
      · rw [if_pos hlast]
        exact ⟨c, rfl, .refl c, .inr (rest_eq_nil he hlast)⟩
      · rw [if_neg hlast]
        cases hrest : c.rest with
        | nil => exact absurd hrest (rest_ne_nil he hc hlast)
        | cons token rest =>
            have hleft : c.left =
                Cursor.left { c with rest := rest, ahead := c.ahead ++ [token] } := by
              simp [left, hrest]
            simp only [pull, hrest]
            obtain ⟨c', hfill, hpass, hfar⟩ :=
              ih (c := { c with rest := rest, ahead := c.ahead ++ [token] }) (hleft ▸ he) hc
            refine ⟨c', hfill, ⟨hleft.trans hpass.left, hpass.nesting, hpass.loops⟩, ?_⟩
            rw [List.length_append, List.length_singleton] at hfar
            exact hfar.imp_left fun hle => by omega

theorem current_not_eof {n : Nat} {token : Token} (he : Ended c.left)
    (htoken : c.left[n + 1]? = some token) : c.current.is .eof = false := by
  refine Bool.eq_false_iff.2 fun heof => ?_
  have hnil := Ended.eq_nil (show Ended (c.current :: (c.ahead ++ c.rest)) from he) heof
  simp [left, hnil] at htoken

theorem peek_of_fill {n : Nat} (hc : c.current.is .eof = false)
    (hfill : fill ((n + 1 : Int) - c.ahead.length).toNat c = (.ok (), c'))
    (hpos : 0 < c'.ahead.length) :
    ∃ token, (peek (n + 1)).runFrom c = (.ok token, c') ∧
      c'.ahead[min n (c'.ahead.length - 1)]? = some token := by
  have hstep : (ofStep (fill ((n + 1 : Int) - c.ahead.length).toNat)).runFrom c = (.ok (), c') :=
    hfill
  have hlt : min n (c'.ahead.length - 1) < c'.ahead.length := by omega
  have hi : min ((n : Int) + 1 - 1) (c'.ahead.length - 1) =
      (min n (c'.ahead.length - 1) : Nat) := by omega
  have hn : (0 : Int) < n + 1 := by omega
  have hneg : ¬((min n (c'.ahead.length - 1) : Nat) : Int) < 0 := by omega
  refine ⟨_, ?_, List.getElem?_eq_getElem hlt⟩
  simp only [peek, runFrom_bind_get, hc, Bool.false_eq_true, if_false, bind_of_ok hstep, hn,
    if_true, hi, hneg, Int.toNat_natCast, List.getElem?_eq_getElem hlt]
  rfl

theorem peek_spec {n : Nat} {token : Token} (he : Ended c.left)
    (htoken : c.left[n + 1]? = some token) :
    ∃ c', (peek (n + 1)).runFrom c = (.ok token, c') ∧ c.Passes [] c' := by
  have hc := current_not_eof he htoken
  obtain ⟨c', hfill, hpass, hfar⟩ := fill_spec ((n + 1 : Int) - c.ahead.length).toNat he hc
  have htoken' : (c'.ahead ++ c'.rest)[n]? = some token := by
    rw [hpass.left] at htoken
    exact htoken
  have hahead : n < c'.ahead.length := by
    have hlen : n < (c'.ahead ++ c'.rest).length := (List.getElem?_eq_some_iff.1 htoken').1
    rcases hfar with hfar | hrest
    · omega
    · simpa [hrest] using hlen
  obtain ⟨found, hpeek, hfound⟩ := peek_of_fill hc hfill (by omega)
  rw [List.getElem?_append_left hahead] at htoken'
  rw [Nat.min_eq_left (by omega), htoken'] at hfound
  obtain rfl : token = found := by simpa using hfound
  exact ⟨c', hpeek, hpass⟩

theorem significantF_spec (fuel offset : Nat) (token : Token) (he : Ended c.left)
    (htoken : c.left[offset]? = some token) (hfuel : c.left.length ≤ fuel + offset) :
    ∃ c' found, (significantF fuel offset token).runFrom c = (.ok found, c') ∧ c.Passes [] c' ∧
      ((c.left.drop offset).dropWhile Token.isLineEnd).head? = some found := by
  induction fuel generalizing c offset token with
  | zero =>
      have hlt := (List.getElem?_eq_some_iff.1 htoken).1
      omega
  | succ fuel ih =>
      obtain ⟨hlt, hget⟩ := List.getElem?_eq_some_iff.1 htoken
      have hdrop : c.left.drop offset = token :: c.left.drop (offset + 1) := by
        rw [List.drop_eq_getElem_cons hlt, hget]
      rw [significantF]
      by_cases hnew : token.isLineEnd = true
      · -- the end of a line is not the end of the script, so there is a token behind it
        have hend : Ended (c.left.drop (offset + 1)) := by
          have hhere : Ended (c.left.drop offset) :=
            Ended.of_append ((List.take_append_drop offset c.left).symm ▸ he) (by simp [hdrop])
          exact (hdrop ▸ hhere).tail (Token.is_of_ne hnew (by decide))
        obtain ⟨next, hnext⟩ : ∃ next, c.left[offset + 1]? = some next := by
          refine ⟨_, List.getElem?_eq_getElem ?_⟩
          have := List.length_pos_iff.2 hend.ne_nil
          rw [List.length_drop] at this
          omega
        obtain ⟨c₁, hpeek, hpass⟩ := peek_spec he hnext
        have hleft : c.left = c₁.left := hpass.left
        obtain ⟨c', found, hrun, hpass', hfound⟩ :=
          ih (c := c₁) (offset + 1) next (hleft ▸ he) (hleft ▸ hnext) (by rw [← hleft]; omega)
        refine ⟨c', found, ?_, hpass.nil_trans hpass', ?_⟩
        · rw [if_pos (show token.is .newline = true from hnew), bind_of_ok hpeek]
          exact hrun
        · rw [hdrop, List.dropWhile_cons_of_pos hnew, hleft]
          exact hfound
      · refine ⟨c, token, ?_, .refl c, ?_⟩
        · rw [if_neg (show ¬token.is .newline = true from hnew)]
          rfl
        · rw [hdrop, List.dropWhile_cons_of_neg hnew, List.head?_cons]

theorem significant_spec (he : Ended c.left) :
    ∃ c' found, significant.runFrom c = (.ok found, c') ∧ c.Passes [] c' ∧
      (c.left.dropWhile Token.isLineEnd).head? = some found := by
  have hfuel : c.left.length ≤ c.remaining + 2 + 0 := by
    rw [length_left]
    omega
  exact significantF_spec (c.remaining + 2) 0 c.current he rfl hfuel

/-! ### Moving -/

theorem advance_eq_ok {u : Unit} (h : advance.runFrom c = (.ok u, c')) :
    c.Passes [c.current] c' := by
  simp only [advance, ofStep, runFrom, ExceptT.run, ExceptT.mk] at h
  cases hahead : c.ahead with
  | cons token ahead =>
      simp only [hahead] at h
      obtain ⟨-, rfl⟩ := Prod.mk.inj h
      exact ⟨by simp [left, hahead], rfl, rfl⟩
  | nil =>
      simp only [hahead] at h
      cases hrest : c.rest with
      | cons token rest =>
          simp only [pull, hrest] at h
          obtain ⟨-, rfl⟩ := Prod.mk.inj h
          exact ⟨by simp [left, hahead, hrest], rfl, rfl⟩
      | nil =>
          simp only [pull, hrest] at h
          cases hfault : c.fault with
          | none => simp [hfault] at h
          | some fault => simp [hfault] at h

theorem advance_spec (he : Ended c.left) (hc : c.current.is .eof = false) :
    ∃ c', advance.runFrom c = (.ok (), c') ∧ c.Passes [c.current] c' := by
  suffices h : ∃ c', advance.runFrom c = (.ok (), c') by
    obtain ⟨c', hc'⟩ := h
    exact ⟨c', hc', advance_eq_ok hc'⟩
  cases hahead : c.ahead with
  | cons token ahead => exact ⟨{ c with current := token, ahead := ahead }, by
      simp [advance, ofStep, runFrom, ExceptT.run, ExceptT.mk, hahead]⟩
  | nil =>
      cases hrest : c.rest with
      | cons token rest => exact ⟨{ c with current := token, rest := rest }, by
          simp [advance, ofStep, runFrom, ExceptT.run, ExceptT.mk, hahead, pull, hrest]⟩
      | nil =>
          have hend := Ended.tail (show Ended (c.current :: (c.ahead ++ c.rest)) from he) hc
          exact absurd (by rw [hahead, hrest]; rfl) hend.ne_nil

theorem skipF_spec (p : Token → Bool) (hp : ∀ t, p t = true → t.is .eof = false) (fuel : Nat)
    (he : Ended c.left) (hfuel : c.left.length ≤ fuel) :
    ∃ c', (skipF p fuel).runFrom c = (.ok (), c') ∧ c.Passes (c.left.takeWhile p) c' := by
  induction fuel generalizing c with
  | zero =>
      rw [length_left] at hfuel
      omega
  | succ fuel ih =>
      rw [skipF, runFrom_bind_current]
      obtain ⟨rest, hrest⟩ := c.left_eq_cons
      by_cases hcur : p c.current = true
      · obtain ⟨c₁, hadv, hpass⟩ := advance_spec he (hp _ hcur)
        have hleft : c₁.left = rest := hpass.left_eq hrest
        have hlen : c₁.left.length ≤ fuel := by
          rw [hrest, List.length_cons, ← hleft] at hfuel
          omega
        obtain ⟨c', hskip, hpass'⟩ := ih (c := c₁) (hpass.ended he) hlen
        refine ⟨c', ?_, ?_⟩
        · rw [if_pos hcur, bind_of_ok hadv]
          exact hskip
        · rw [hrest, List.takeWhile_cons_of_pos hcur, ← hleft]
          exact hpass.cons hpass'
      · refine ⟨c, ?_, ?_⟩
        · rw [if_neg hcur]
          rfl
        · rw [hrest, List.takeWhile_cons_of_neg hcur]
          exact .refl c

theorem isSeparator_not_eof {t : Token} (h : isSeparator t = true) : t.is .eof = false := by
  rcases Bool.or_eq_true_iff.1 h with h | h
  · exact Token.is_of_ne h (by decide)
  · exact Token.is_of_ne h (by decide)

theorem skipSeparators_eq : skipSeparators =
    get >>= fun c : Cursor => skipF isSeparator (c.remaining + 1) := by
  refine funext fun c => ?_
  show (if isSeparator c.current then skipF isSeparator (c.remaining + 1) else pure ()).runFrom c =
    (skipF isSeparator (c.remaining + 1)).runFrom c
  split
  · rfl
  · rename_i hnot
    rw [skipF, runFrom_bind_current, if_neg hnot]

theorem skipSeparators_spec (he : Ended c.left) :
    ∃ c', skipSeparators.runFrom c = (.ok (), c') ∧
      c.Passes (c.left.takeWhile isSeparator) c' := by
  rw [skipSeparators_eq]
  exact skipF_spec isSeparator (fun _ => isSeparator_not_eof) _ he (Nat.le_of_eq (length_left c))

theorem skipLines_spec (he : Ended c.left) :
    ∃ c', skipLines.runFrom c = (.ok (), c') ∧ c.Passes (c.left.takeWhile Token.isLineEnd) c' :=
  skipF_spec Token.isLineEnd (fun _ ht => Token.is_of_ne ht (by decide)) _ he (Nat.le_of_eq (length_left c))

theorem eat_eq_ok {kind : Kind} {token : Token} (hkind : kind ≠ .eof)
    (h : (eat kind).runFrom c = (.ok token, c')) :
    token = c.current ∧ c.current.is kind = true ∧ c.Passes [c.current] c' := by
  rw [eat, runFrom_bind_current] at h
  cases his : c.current.is kind with
  | false =>
      simp only [his, Bool.not_false, if_true] at h
      obtain ⟨_, _, h, -⟩ := bind_eq_ok h
      exact absurd h expected_ne_ok
  | true =>
      have hne : c.current.is .eof = false := Token.is_of_ne his hkind
      simp only [his, hne, Bool.not_true, Bool.not_false, Bool.false_eq_true, if_false,
        if_true] at h
      obtain ⟨_, c₁, hadv, h⟩ := bind_eq_ok h
      obtain ⟨rfl, rfl⟩ := pure_eq_ok h
      exact ⟨rfl, rfl, advance_eq_ok hadv⟩

theorem eat_spec (kind : Kind) (hkind : kind ≠ .eof) (he : Ended c.left)
    (his : c.current.is kind = true) :
    ∃ c', (eat kind).runFrom c = (.ok c.current, c') ∧ c.Passes [c.current] c' := by
  have hne : c.current.is .eof = false := Token.is_of_ne his hkind
  obtain ⟨c', hadv, hpass⟩ := advance_spec he hne
  refine ⟨c', ?_, hpass⟩
  simp only [eat, runFrom_bind_current, his, hne, Bool.not_true, Bool.not_false,
    Bool.false_eq_true, if_false, if_true, bind_of_ok hadv]
  rfl

end Parse

/-! ### Reading terminals -/

theorem Terminal.exists_of_item {α : Type} (item : α → Item) (value : α) {token : Token}
    (h : token.item = item value) :
    ∃ t : Terminal item, t.token = token ∧ t.value = value :=
  ⟨⟨value, token.line, token.column⟩, by rw [Terminal.token, ← h], rfl⟩

theorem Terminal.exists_row {α : Type} {item : α → Item} {tokens : List Token}
    (h : ∀ t ∈ tokens, ∃ m : Terminal item, m.token = t) :
    ∃ marks : List (Terminal item), marks.map Terminal.token = tokens := by
  induction tokens with
  | nil => exact ⟨[], rfl⟩
  | cons t tokens ih =>
      obtain ⟨m, rfl⟩ := h t List.mem_cons_self
      obtain ⟨marks, rfl⟩ := ih fun t ht => h t (List.mem_cons_of_mem _ ht)
      exact ⟨m :: marks, rfl⟩

theorem Punct.exists_of_is {token : Token} {s : Symbol} (h : token.is (.symbol s) = true) :
    ∃ t : Punct s, t.token = token := by
  have hkind : token.item.kind = .symbol s := by simpa [Token.is, Item.is] using h
  have hitem : token.item = .symbol s := by
    cases hi : token.item <;> simp_all [Item.kind]
  exact (Terminal.exists_of_item _ () hitem).imp fun _ ht => ht.1

theorem Word.exists_of_is {token : Token} {k : Keyword} (h : token.is (.keyword k) = true) :
    ∃ t : Word k, t.token = token := by
  have hkind : token.item.kind = .keyword k := by simpa [Token.is, Item.is] using h
  have hitem : token.item = .keyword k := by
    cases hi : token.item <;> simp_all [Item.kind]
  exact (Terminal.exists_of_item _ () hitem).imp fun _ ht => ht.1

theorem LineEnd.exists_of_is {token : Token} (h : token.isLineEnd = true) :
    ∃ t : LineEnd, t.token = token := by
  have hkind : token.item.kind = .newline := by simpa [Token.isLineEnd, Token.is, Item.is] using h
  have hitem : token.item = .newline := by
    cases hi : token.item <;> simp_all [Item.kind]
  exact (Terminal.exists_of_item _ () hitem).imp fun _ ht => ht.1

theorem Ending.exists_of_is {token : Token} (h : Parse.isSeparator token = true) :
    ∃ t : Terminal Ending.item, t.token = token := by
  rcases Bool.or_eq_true_iff.1 h with h | h
  · obtain ⟨t, rfl⟩ := LineEnd.exists_of_is h
    exact ⟨⟨.newline, t.line, t.column⟩, rfl⟩
  · obtain ⟨t, rfl⟩ := Punct.exists_of_is h
    exact ⟨⟨.semi, t.line, t.column⟩, rfl⟩

namespace Parse

open Cursor

variable {α β : Type} {c c' c'' : Cursor} {rest : List Token}

theorem advance_terminal {α : Type} {item : α → Item} (t : Terminal item) (he : Ended c.left)
    (hleft : c.left = t.token :: rest) (hitem : (item t.value).is .eof = false) :
    ∃ c', advance.runFrom c = (.ok (), c') ∧ c.Passes [t.token] c' ∧ c'.left = rest := by
  have hcur := current_of_left hleft
  obtain ⟨c', hadv, hpass⟩ := advance_spec he (by rw [hcur]; exact hitem)
  rw [hcur] at hpass
  exact ⟨c', hadv, hpass, hpass.left_eq hleft⟩

theorem eatSymbol_eq_ok {s : Symbol} {token : Token}
    (h : (eatSymbol s).runFrom c = (.ok token, c')) :
    ∃ t : Punct s, t.token = token ∧ c.Passes [t.token] c' := by
  obtain ⟨rfl, his, hpass⟩ := eat_eq_ok (by simp) h
  obtain ⟨t, ht⟩ := Punct.exists_of_is his
  exact ⟨t, ht, ht ▸ hpass⟩

theorem eatSymbol_spec {s : Symbol} (t : Punct s) (he : Ended c.left)
    (hleft : c.left = t.token :: rest) :
    ∃ c', (eatSymbol s).runFrom c = (.ok t.token, c') ∧ c.Passes [t.token] c' ∧
      c'.left = rest := by
  have hcur := current_of_left hleft
  obtain ⟨c', heat, hpass⟩ := eat_spec (.symbol s) (by simp) he
    (by simp [hcur, Terminal.token, Token.is, Item.is, Item.kind])
  rw [hcur] at heat hpass
  exact ⟨c', heat, hpass, hpass.left_eq hleft⟩

theorem eatKeyword_eq_ok {k : Keyword} {token : Token}
    (h : (eatKeyword k).runFrom c = (.ok token, c')) :
    ∃ t : Word k, t.token = token ∧ c.Passes [t.token] c' := by
  obtain ⟨rfl, his, hpass⟩ := eat_eq_ok (by simp) h
  obtain ⟨t, ht⟩ := Word.exists_of_is his
  exact ⟨t, ht, ht ▸ hpass⟩

theorem eatKeyword_spec {k : Keyword} (t : Word k) (he : Ended c.left)
    (hleft : c.left = t.token :: rest) :
    ∃ c', (eatKeyword k).runFrom c = (.ok t.token, c') ∧ c.Passes [t.token] c' ∧
      c'.left = rest := by
  have hcur := current_of_left hleft
  obtain ⟨c', heat, hpass⟩ := eat_spec (.keyword k) (by simp) he
    (by simp [hcur, Terminal.token, Token.is, Item.is, Item.kind])
  rw [hcur] at heat hpass
  exact ⟨c', heat, hpass, hpass.left_eq hleft⟩

theorem name_eq_ok {text : String} (h : name.runFrom c = (.ok text, c')) :
    ∃ t : Terminal Label.item, t.value.text = text ∧ c.Passes [t.token] c' := by
  rw [name, runFrom_bind_current] at h
  cases hitem : c.current.item with
  | ident word =>
      simp only [hitem, Item.name?] at h
      obtain ⟨_, c₁, hadv, h⟩ := bind_eq_ok h
      obtain ⟨rfl, rfl⟩ := pure_eq_ok h
      obtain ⟨t, ht, hv⟩ := Terminal.exists_of_item Label.item (.ident word) hitem
      exact ⟨t, by rw [hv, Label.text], ht ▸ advance_eq_ok hadv⟩
  | keyword k =>
      simp only [hitem, Item.name?] at h
      obtain ⟨_, c₁, hadv, h⟩ := bind_eq_ok h
      obtain ⟨rfl, rfl⟩ := pure_eq_ok h
      obtain ⟨t, ht, hv⟩ := Terminal.exists_of_item Label.item (.keyword k) hitem
      exact ⟨t, by rw [hv, Label.text], ht ▸ advance_eq_ok hadv⟩
  | _ =>
      simp only [hitem, Item.name?] at h
      exact absurd h expected_ne_ok

theorem name_spec (t : Terminal Label.item) (he : Ended c.left)
    (hleft : c.left = t.token :: rest) :
    ∃ c', name.runFrom c = (.ok t.value.text, c') ∧ c.Passes [t.token] c' ∧ c'.left = rest := by
  have hname : c.current.item.name? = some t.value.text := by
    rw [current_of_left hleft, Terminal.token]
    cases t.value <;> rfl
  obtain ⟨c', hadv, hpass, hrest⟩ := advance_terminal t he hleft (by cases t.value <;> rfl)
  refine ⟨c', ?_, hpass, hrest⟩
  simp only [name, runFrom_bind_current, hname, bind_of_ok hadv]
  rfl

theorem identifier_eq_ok {text : String} (h : identifier.runFrom c = (.ok text, c')) :
    ∃ t : Terminal Item.ident, t.value = text ∧ c.Passes [t.token] c' := by
  obtain ⟨token, c₁, heat, h⟩ := bind_eq_ok h
  obtain ⟨rfl, his, hpass⟩ := eat_eq_ok (by simp) heat
  split at h
  · rename_i word hitem
    obtain ⟨rfl, rfl⟩ := pure_eq_ok h
    obtain ⟨t, ht, hv⟩ := Terminal.exists_of_item Item.ident word hitem
    exact ⟨t, hv, ht ▸ hpass⟩
  · exact absurd h expected_ne_ok

theorem identifier_spec (t : Terminal Item.ident) (he : Ended c.left)
    (hleft : c.left = t.token :: rest) :
    ∃ c', identifier.runFrom c = (.ok t.value, c') ∧ c.Passes [t.token] c' ∧
      c'.left = rest := by
  have hcur := current_of_left hleft
  obtain ⟨c', heat, hpass⟩ := eat_spec .ident (by simp) he (by rw [hcur]; rfl)
  rw [hcur] at heat hpass
  refine ⟨c', ?_, hpass, hpass.left_eq hleft⟩
  rw [identifier, bind_of_ok heat]
  rfl

/-! ### Levels and loops -/

theorem enter_eq_ok {u : Unit} (h : enter.runFrom c = (.ok u, c')) :
    c.nesting < maxNesting ∧ c' = { c with nesting := c.nesting + 1 } := by
  have h' : (if (maxNesting : Int) < c.nesting + 1 then complain .nesting
      else pure () : Parse Unit).runFrom { c with nesting := c.nesting + 1 } = (.ok u, c') := h
  split at h'
  · exact absurd h' complain_ne_ok
  · obtain ⟨-, rfl⟩ := pure_eq_ok h'
    exact ⟨by omega, rfl⟩

theorem enter_spec (h : c.nesting < maxNesting) :
    enter.runFrom c = (.ok (), { c with nesting := c.nesting + 1 }) := by
  show (if (maxNesting : Int) < c.nesting + 1 then complain .nesting
      else pure () : Parse Unit).runFrom { c with nesting := c.nesting + 1 } = _
  rw [if_neg (by omega)]
  rfl

theorem runFrom_leave (c : Cursor) :
    leave.runFrom c = (.ok (), { c with nesting := c.nesting - 1 }) := rfl

theorem inLoop_eq_ok {p : Parse α} {a : α} (h : (inLoop p).runFrom c = (.ok a, c')) :
    ∃ c₁, p.runFrom { c with loops := c.loops + 1 } = (.ok a, c₁) ∧
      c' = { c₁ with loops := c₁.loops - 1 } := by
  obtain ⟨hresult, rfl⟩ := Prod.mk.inj h
  exact ⟨_, Prod.ext hresult rfl, rfl⟩

theorem inLoop_spec {p : Parse α} {a : α}
    (h : p.runFrom { c with loops := c.loops + 1 } = (.ok a, c')) :
    (inLoop p).runFrom c = (.ok a, { c' with loops := c'.loops - 1 }) := by
  show ((p.runFrom { c with loops := c.loops + 1 }).1,
    { (p.runFrom { c with loops := c.loops + 1 }).2 with
      loops := (p.runFrom { c with loops := c.loops + 1 }).2.loops - 1 }) = _
  rw [h]

end Parse

end TriggerEngine
