/-
**Where a reading stops.**

A reading on any tape, also on one that breaks off with a fault, ends in one of three ways.  It
succeeds; or it complains, and then the complaint names the token on which the cursor stands; or it
has come to the end of a tape that breaks off, and passes on the fault it met there.  It never asks
for a token behind the end of a script, because a token is only left when it was told apart from
that end before.

This is shown here for moving on and for looking ahead.  On its way the cursor only moves forward.

Main definitions:

* `Cursor.Complete` — cursors on a tape that ends with the end of the script, or with a fault;
* `Cursor.Comes`, `Parse.Ends` — the three ways in which a reading ends.

Main results:

* `Parse.advance_comes` — moving on;
* `Grammar.skipToElse_ends`, `Grammar.atCase_ends` — looking for a further case of a conditional.
-/

import TriggerEngine.Proofs.Syntax.Reading

set_option autoImplicit false

namespace TriggerEngine

variable {α β : Type}

/-! ### Ways to end -/

namespace Cursor

/-- A tape that does not break off with a fault has the end of the script at its end. -/
def Complete (c : Cursor) : Prop :=
  c.fault = none → Ended c.left

/-- What a reading from `c` can come to.  The cursor has moved forward, and the reading has
succeeded and taken some tokens, or complained about the token it stands on, or met the fault behind
the last token. -/
inductive Comes (c : Cursor) (least : Nat) : Except Fault α × Cursor → Prop
  | done {a : α} {c' : Cursor} (forward : c'.left <:+ c.left) (fault : c'.fault = c.fault)
      (file : c'.file = c.file) (taken : c'.left.length + least ≤ c.left.length) :
      Comes c least (.ok a, c')
  | complained {c' : Cursor} (cause : ParseCause) (forward : c'.left <:+ c.left) :
      Comes c least (.error (.parse cause c'.place), c')
  | met {fault : Fault} {c' : Cursor} (forward : c'.left <:+ c.left)
      (met : c.fault = some fault) : Comes c least (.error fault, c')

variable {c c' : Cursor} {least : Nat}

theorem Complete.forward (h : c.Complete) (hleft : c'.left <:+ c.left)
    (hfault : c'.fault = c.fault) : c'.Complete := by
  intro hnone
  obtain ⟨passed, hpassed⟩ := hleft
  exact Ended.of_append (hpassed ▸ h (hfault ▸ hnone)) c'.left_ne_nil

namespace Comes

theorem forward {r : Except Fault α × Cursor} (h : c.Comes least r) : r.2.left <:+ c.left := by
  cases h with
  | done forward => exact forward
  | complained _ forward => exact forward
  | met forward => exact forward

theorem of_ok {a : α} (h : c.Comes least ((.ok a, c') : Except Fault α × Cursor)) :
    c'.left <:+ c.left ∧ c'.fault = c.fault ∧ c'.file = c.file ∧
      c'.left.length + least ≤ c.left.length := by
  cases h with
  | done forward fault file taken => exact ⟨forward, fault, file, taken⟩

theorem stay (a : α) (hleft : c'.left = c.left) (hfault : c'.fault = c.fault)
    (hfile : c'.file = c.file) : c.Comes 0 ((.ok a, c') : Except Fault α × Cursor) :=
  .done (hleft ▸ List.suffix_rfl) hfault hfile (by simp [hleft])

theorem mono {r : Except Fault α × Cursor} (h : c.Comes least r) {fewer : Nat}
    (hle : fewer ≤ least) : c.Comes fewer r := by
  cases h with
  | done forward fault file taken => exact .done forward fault file (by omega)
  | complained cause forward => exact .complained cause forward
  | met forward met => exact .met forward met

theorem after {r : Except Fault α × Cursor} {more : Nat} (hleft : c'.left <:+ c.left)
    (hfault : c'.fault = c.fault) (hfile : c'.file = c.file)
    (htaken : c'.left.length + least ≤ c.left.length) (h : c'.Comes more r) :
    c.Comes (least + more) r := by
  cases h with
  | done forward fault file taken =>
      exact .done (forward.trans hleft) (fault.trans hfault) (file.trans hfile) (by omega)
  | complained cause forward => exact .complained cause (forward.trans hleft)
  | met forward met => exact .met (forward.trans hleft) (hfault ▸ met)

end Comes

end Cursor

namespace Parse

open Cursor

variable {c c' : Cursor} {least : Nat}

/-- A reading that ends in one of the three ways, wherever it is started. -/
def Ends (least : Nat) (p : Parse α) : Prop :=
  ∀ c : Cursor, c.Complete → c.Comes least (p.runFrom c)

theorem comes_bind {p : Parse α} {k : α → Parse β} {more : Nat} (hc : c.Complete)
    (hp : c.Comes least (p.runFrom c))
    (hk : ∀ a c', p.runFrom c = (.ok a, c') → c'.Complete → c'.Comes more ((k a).runFrom c')) :
    c.Comes (least + more) ((p >>= k).runFrom c) := by
  rw [runFrom_bind]
  rcases hrun : p.runFrom c with ⟨result, c₁⟩
  rw [hrun] at hp
  cases hp with
  | done forward fault file taken =>
      exact .after forward fault file taken (hk _ c₁ hrun (hc.forward forward fault))
  | complained cause forward => exact .complained cause forward
  | met forward met => exact .met forward met

theorem comes_first {p : Parse α} {k : α → Parse β} (hc : c.Complete)
    (hp : c.Comes least (p.runFrom c)) (hk : ∀ a, Ends 0 (k a)) :
    c.Comes least ((p >>= k).runFrom c) :=
  comes_bind hc hp fun a c' _ hc' => hk a c' hc'

namespace Ends

theorem pure (a : α) : Ends 0 (Pure.pure a : Parse α) :=
  fun _ _ => .stay a rfl rfl rfl

theorem andThen {p : Parse α} {k : α → Parse β} (hp : Ends 0 p) (hk : ∀ a, Ends 0 (k a)) :
    Ends 0 (p >>= k) :=
  fun c hc => comes_first hc (hp c hc) hk

theorem read {k : Cursor → Parse β}
    (hk : ∀ c : Cursor, c.Complete → c.Comes least ((k c).runFrom c)) : Ends least (get >>= k) :=
  hk

end Ends

/-! ### Moving -/

theorem advance_comes (hc : c.Complete) (hne : c.current.is .eof = false) :
    c.Comes 1 (advance.runFrom c) := by
  rcases hrun : advance.runFrom c with ⟨result, c'⟩
  cases result with
  | ok u =>
      have hpass := advance_eq_ok hrun
      have hlen := congrArg List.length hpass.left
      refine .done ⟨[c.current], hpass.left.symm⟩ ?_ ?_ (by simp at hlen; omega) <;>
      -- the fault stays where it is, behind the tokens
      cases hahead : c.ahead <;> cases hrest : c.rest <;> cases hfault : c.fault <;>
        simp [advance, ofStep, runFrom, ExceptT.run, ExceptT.mk, pull, hahead, hrest, hfault] at hrun <;>
        simp [← hrun]
  | error fault =>
      cases hfault : c.fault with
      | none =>
          obtain ⟨c₁, hadv, -⟩ := advance_spec (hc hfault) hne
          rw [hadv] at hrun
          cases hrun
      | some met =>
          cases hahead : c.ahead <;> cases hrest : c.rest <;>
            simp [advance, ofStep, runFrom, ExceptT.run, ExceptT.mk, pull, hahead, hrest, hfault] at hrun
          obtain ⟨rfl, rfl⟩ := hrun
          exact .met (by simp [left, hahead, hrest]) hfault

theorem skipF_ends {p : Token → Bool} (hp : ∀ t, p t = true → t.is .eof = false) (fuel : Nat) :
    Ends 0 (skipF p fuel) := by
  induction fuel with
  | zero => exact .pure _
  | succ fuel ih =>
      intro c hc
      rw [skipF, runFrom_bind_current]
      split
      · rename_i hcur
        exact comes_first hc ((advance_comes hc (hp _ hcur)).mono (Nat.zero_le _)) fun _ => ih
      · exact Ends.pure _ c hc

theorem skipSeparators_ends : Ends 0 skipSeparators := by
  rw [skipSeparators_eq]
  exact .read fun c hc => skipF_ends (fun _ => isSeparator_not_eof) _ c hc

theorem skipLines_ends : Ends 0 skipLines :=
  .read fun c hc => skipF_ends (fun _ h => Token.is_of_ne h (by decide)) _ c hc

/-! ### Looking -/

theorem fill_cases (count : Nat) (hc : c.Complete) (hne : c.current.is .eof = false) :
    (∃ c', fill count c = (.ok (), c') ∧ c'.left = c.left ∧ c'.current = c.current ∧
      c'.fault = c.fault ∧ c'.file = c.file ∧ (0 < count + c.ahead.length → c'.ahead ≠ [])) ∨
    ∃ fault c', fill count c = (.error fault, c') ∧ c'.left = c.left ∧ c.fault = some fault := by
  induction count generalizing c with
  | zero =>
      refine .inl ⟨c, rfl, rfl, rfl, rfl, rfl, fun hpos hnil => ?_⟩
      simp [hnil] at hpos
  | succ count ih =>
      rw [fill]
      by_cases hlast : c.ahead.getLast?.any (·.is .eof) = true
      · rw [if_pos hlast]
        refine .inl ⟨c, rfl, rfl, rfl, rfl, rfl, fun _ hnil => ?_⟩
        simp [hnil] at hlast
      · rw [if_neg hlast]
        cases hrest : c.rest with
        | nil =>
            cases hfault : c.fault with
            | none => exact absurd hrest (rest_ne_nil (hc hfault) hne hlast)
            | some fault =>
                simp only [pull, hrest, hfault]
                exact .inr ⟨fault, _, rfl, by simp [left, hrest], rfl⟩
        | cons token rest =>
            have hleft : Cursor.left { c with rest := rest, ahead := c.ahead ++ [token] } =
                c.left := by
              simp [left, hrest]
            simp only [pull, hrest]
            rcases ih (c := { c with rest := rest, ahead := c.ahead ++ [token] })
              (fun hnone => hleft ▸ hc hnone) hne with
              ⟨c', hfill, hsame, hcur, hfault, hfile, hahead⟩ | ⟨fault, c', hfill, hsame, hfault⟩
            · exact .inl ⟨c', hfill, hsame.trans hleft, hcur, hfault, hfile,
                fun _ => hahead (by rw [List.length_append, List.length_singleton]; omega)⟩
            · exact .inr ⟨fault, c', hfill, hsame.trans hleft, hfault⟩

theorem peek_cases (n : Nat) (hc : c.Complete) (hne : c.current.is .eof = false) :
    (∃ token c', (peek (n + 1)).runFrom c = (.ok token, c') ∧ c'.left = c.left ∧
      c'.current = c.current ∧ c'.fault = c.fault ∧ c'.file = c.file ∧
      c'.ahead[min n (c'.ahead.length - 1)]? = some token) ∨
    ∃ fault c', (peek (n + 1)).runFrom c = (.error fault, c') ∧ c'.left = c.left ∧
      c.fault = some fault := by
  rcases fill_cases ((n + 1 : Int) - c.ahead.length).toNat hc hne with
    ⟨c', hfill, hsame, hcur, hfault, hfile, hahead⟩ | ⟨fault, c', hfill, hsame, hfault⟩
  · obtain ⟨token, hpeek, htoken⟩ :=
      peek_of_fill hne hfill (List.length_pos_iff.2 (hahead (by omega)))
    exact .inl ⟨token, c', hpeek, hsame, hcur, hfault, hfile, htoken⟩
  · have hstep : (ofStep (fill ((n + 1 : Int) - c.ahead.length).toNat)).runFrom c =
        (.error fault, c') := hfill
    refine .inr ⟨fault, c', ?_, hsame, hfault⟩
    rw [peek, runFrom_bind_get, hne]
    simp only [Bool.false_eq_true, if_false]
    rw [runFrom_bind, hstep]

theorem peek_ends (n : Nat) : Ends 0 (peek (n + 1)) := by
  intro c hc
  cases hcur : c.current.is .eof with
  | true =>
      rw [peek, runFrom_bind_get, hcur]
      exact Ends.pure _ c hc
  | false =>
      rcases peek_cases n hc hcur with
        ⟨token, c', hpeek, hleft, -, hfault, hfile, -⟩ | ⟨fault, c', hpeek, hleft, hfault⟩
      · rw [hpeek]
        exact .stay token hleft hfault hfile
      · rw [hpeek]
        exact .met (hleft ▸ List.suffix_rfl) hfault

theorem significantF_ends (fuel offset : Nat) (token : Token) :
    Ends 0 (significantF fuel offset token) := by
  induction fuel generalizing offset token with
  | zero => exact .pure _
  | succ fuel ih =>
      unfold significantF
      split
      · exact (peek_ends offset).andThen fun token => ih _ token
      · exact .pure _

theorem significant_ends : Ends 0 significant :=
  .read fun c hc => significantF_ends _ _ _ c hc

end Parse

/-! ### Looking for a further case -/

namespace Grammar

open Cursor Parse

theorem skipToElse_ends : Ends 0 skipToElse := by
  intro c hc
  rw [skipToElse, runFrom_bind_at]
  split
  · refine (significant_ends.andThen fun token => ?_) c hc
    split
    · exact skipLines_ends
    · exact .pure _
  · exact Ends.pure _ c hc

theorem atCase_ends : Ends 0 atCase := by
  intro c hc
  rw [atCase, runFrom_bind_atKeyword]
  split
  · exact Ends.pure _ c hc
  · rw [runFrom_bind_atKeyword]
    split
    · exact ((peek_ends 0).andThen fun _ => .pure _) c hc
    · exact Ends.pure _ c hc

theorem atCase_eq_true {c c' : Cursor} (hc : c.Complete)
    (h : atCase.runFrom c = (.ok true, c')) :
    c'.current.is .eof = false ∧
      (c'.current.is (.keyword .elseWord) = true →
        ∃ token more, c'.left = c'.current :: token :: more ∧ token.is .eof = false) := by
  rw [atCase, runFrom_bind_atKeyword] at h
  split at h
  · rename_i helif
    obtain ⟨-, rfl⟩ := pure_eq_ok h
    refine ⟨Token.is_of_ne helif (by simp), fun helse => ?_⟩
    rw [Token.is_of_ne helif (by simp)] at helse
    cases helse
  · rw [runFrom_bind_atKeyword] at h
    split at h
    · rename_i helse
      have hne : c.current.is .eof = false := Token.is_of_ne helse (by simp)
      obtain ⟨token, c₁, hpeek, h⟩ := bind_eq_ok h
      obtain ⟨hif, rfl⟩ := pure_eq_ok h
      rcases peek_cases 0 hc hne with
        ⟨token', c₂, hpeek', -, hcur, -, -, htoken⟩ | ⟨fault, c₂, hpeek', -, -⟩
      · obtain ⟨htok, rfl⟩ := Prod.mk.inj (hpeek'.symm.trans hpeek)
        obtain rfl : token' = token := by simpa using htok
        rw [Nat.zero_min] at htoken
        obtain ⟨ahead, hahead⟩ := List.head?_eq_some_iff.1 (by rw [List.head?_eq_getElem?]; exact htoken)
        exact ⟨by rw [hcur, hne], fun _ => ⟨token', ahead ++ c₂.rest, by rw [left, hahead]; rfl,
          Token.is_of_ne hif (by simp)⟩⟩
      · rw [show ((0 : Nat) : Int) + 1 = 1 from rfl] at hpeek'
        rw [hpeek'] at hpeek
        cases hpeek
    · obtain ⟨hfalse, -⟩ := pure_eq_ok h
      cases hfalse

end Grammar

end TriggerEngine
