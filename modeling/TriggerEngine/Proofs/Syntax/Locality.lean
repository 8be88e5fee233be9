/-
**Reading looks no further than it has to.**

Two rows of tokens that start in the same way are read in the same way, as long as the reading stays
in what they share.  The reading of the first row is followed until it has passed the shared part;
up to there the second reading gives the same results, moves its cursor in the same way and ends
with the same complaint.

The one exception is the end of a conditional, where the reader looks behind the ends of lines for a
further case, and behind an `else` for an `if`.  There the rows may part although the cursor still
stands in what they share: it hangs.  A cursor never hangs for long, since the lines are passed
before anything else is read, and so is the `else`.

Loops of the grammar have as much fuel as there are tokens, so the two rows are not read with the
same fuel; as every round takes a token, neither runs out of it in the shared part.  So that a round
is known to take a token, the rules are followed on all tapes at the same time: wherever they stop,
they have come to an end in one of the ways of `Cursor.Comes`.

Main definitions:

* `Cursor.Agrees` — two cursors in the shared part of two rows;
* `Cursor.Tied` — what two readings in step come to;
* `Parse.Steady` — a computation that comes to an end, and another one in step with it.

Main results:

* `Parse.Steady.bind`, `Parse.Steady.loop` — one computation after the other, and loops;
* `Grammar.rules_steady` — every rule of the grammar is steady;
* `Parse.program_comes`, `Parse.program_current` — how the reading of a script ends;
* `Parse.program_tied` — **reading a script looks no further than it has to**.
-/

import TriggerEngine.Proofs.Syntax.Boundary
import TriggerEngine.Proofs.Syntax.Complaint

set_option autoImplicit false

namespace TriggerEngine

variable {α β : Type}

/-! ### Two readings in step -/

namespace Cursor

/-- Two cursors at the same place of what two rows of tokens share; `rest` and `rest₂` are what the
rows have behind it. -/
structure Agrees (shared rest rest₂ : List Token) (c c₂ : Cursor) : Prop where
  shared_ne_nil : shared ≠ []
  left : c.left = shared ++ rest
  left₂ : c₂.left = shared ++ rest₂
  ended : Ended c.left
  ended₂ : Ended c₂.left
  file : c₂.file = c.file
  fault : c₂.fault = c.fault
  nesting : c₂.nesting = c.nesting
  loops : c₂.loops = c.loops

/-- What a reading comes to that the other one need not follow: it has passed the shared part, or it
hangs at a place where the rows may part. -/
def Settles (Hangs : List Token → Prop) (rest : List Token) (r : Except Fault α × Cursor) : Prop :=
  r.2.left.length ≤ rest.length ∨
    ∃ a shared, r.1 = .ok a ∧ shared ≠ [] ∧ Hangs shared ∧ r.2.left = shared ++ rest

/-- What two readings in step come to: both end in the same way at the same place of the shared
part, or the first one settles. -/
inductive Tied (Hangs : List Token → Prop) (rest rest₂ : List Token) :
    Except Fault α × Cursor → Except Fault α × Cursor → Prop
  | together {result : Except Fault α} {c c₂ : Cursor} {shared : List Token}
      (agrees : Agrees shared rest rest₂ c c₂) : Tied Hangs rest rest₂ (result, c) (result, c₂)
  | loose {r r₂ : Except Fault α × Cursor} (settles : Settles Hangs rest r) :
      Tied Hangs rest rest₂ r r₂

/-- Where nothing may hang. -/
def Never : List Token → Prop := fun _ => False

/-- The ends of lines, behind which a further case of a conditional is looked for. -/
def InLines (shared : List Token) : Prop :=
  ∀ t ∈ shared, t.isLineEnd = true

/-- An `else`, behind which an `if` is looked for. -/
def AtElse (shared : List Token) : Prop :=
  ∃ t, shared = [t] ∧ t.is (.keyword .elseWord) = true

variable {shared rest rest₂ : List Token} {c c₂ c' c₂' : Cursor} {least : Nat} {a b : α}

theorem complete_of_ended (h : Ended c.left) : c.Complete :=
  fun _ => h

namespace Agrees

theorem current (h : Agrees shared rest rest₂ c c₂) : c₂.current = c.current := by
  obtain ⟨token, shared, rfl⟩ := List.exists_cons_of_ne_nil h.shared_ne_nil
  rw [current_of_left h.left, current_of_left h.left₂]

theorem place (h : Agrees shared rest rest₂ c c₂) : c₂.place = c.place := by
  rw [Cursor.place, Cursor.place, h.current, h.file]

theorem level (h : Agrees shared rest rest₂ c c₂) {n n₂ : Int} {m m₂ : Nat} (hn : n₂ = n)
    (hm : m₂ = m) :
    Agrees shared rest rest₂ { c with nesting := n, loops := m }
      { c₂ with nesting := n₂, loops := m₂ } :=
  ⟨h.shared_ne_nil, h.left, h.left₂, h.ended, h.ended₂, h.file, h.fault, hn, hm⟩

theorem passes {tokens : List Token} (h : Agrees (tokens ++ shared) rest rest₂ c c₂)
    (hne : shared ≠ []) (hp : c.Passes tokens c') (hp₂ : c₂.Passes tokens c₂')
    (hc : c.Comes least ((.ok a, c') : Except Fault α × Cursor))
    (hc₂ : c₂.Comes least ((.ok b, c₂') : Except Fault α × Cursor)) :
    Agrees shared rest rest₂ c' c₂' := by
  obtain ⟨-, hfault, hfile, -⟩ := hc.of_ok
  obtain ⟨-, hfault₂, hfile₂, -⟩ := hc₂.of_ok
  exact
    { shared_ne_nil := hne
      left := hp.left_eq (by rw [h.left, List.append_assoc])
      left₂ := hp₂.left_eq (by rw [h.left₂, List.append_assoc])
      ended := hp.ended h.ended
      ended₂ := hp₂.ended h.ended₂
      file := by rw [hfile, hfile₂, h.file]
      fault := by rw [hfault, hfault₂, h.fault]
      nesting := by rw [hp.nesting, hp₂.nesting, h.nesting]
      loops := by rw [hp.loops, hp₂.loops, h.loops] }

theorem shorter {shared' : List Token} (h : Agrees shared rest rest₂ c c₂)
    (h' : Agrees shared' rest rest₂ c' c₂')
    (hcomes : c.Comes least ((.ok a, c') : Except Fault α × Cursor)) :
    shared'.length + least ≤ shared.length := by
  have hlen := hcomes.of_ok.2.2.2
  rw [h.left, h'.left, List.length_append, List.length_append] at hlen
  omega

theorem fuel (h : Agrees shared rest rest₂ c c₂) :
    shared.length ≤ c.remaining + 1 ∧ shared.length ≤ c₂.remaining + 1 := by
  have hlen := congrArg List.length h.left
  have hlen₂ := congrArg List.length h.left₂
  rw [length_left, List.length_append] at hlen hlen₂
  omega

end Agrees

theorem inLines_or_exists (tokens : List Token) :
    InLines tokens ∨
      ∃ lines t more, tokens = lines ++ t :: more ∧ InLines lines ∧ t.isLineEnd = false := by
  induction tokens with
  | nil => exact .inl (List.forall_mem_nil _)
  | cons t tokens ih =>
      cases ht : t.isLineEnd with
      | false => exact .inr ⟨[], t, tokens, rfl, List.forall_mem_nil _, ht⟩
      | true =>
          rcases ih with hlines | ⟨lines, u, more, rfl, hlines, hu⟩
          · exact .inl (List.forall_mem_cons.2 ⟨ht, hlines⟩)
          · exact .inr ⟨t :: lines, u, more, rfl, List.forall_mem_cons.2 ⟨ht, hlines⟩, hu⟩

theorem InLines.current (h : InLines shared) (hne : shared ≠ []) (hleft : c.left = shared ++ rest) :
    c.current.isLineEnd = true := by
  obtain ⟨token, shared, rfl⟩ := List.exists_cons_of_ne_nil hne
  rw [current_of_left hleft]
  exact h token List.mem_cons_self

end Cursor

namespace Parse

open Cursor

/-- All cursors. -/
def Anywhere : Cursor → Prop := fun _ => True

/-- A computation that comes to an end and takes `l` tokens if it succeeds, wherever it is started
at a cursor with some property; and another one that stays in step with it in a shared part of at
most `m` tokens. -/
structure Steady (S : Cursor → Prop) (m l : Nat) (Hangs : List Token → Prop)
    (p p₂ : Parse α) : Prop where
  comes : ∀ c : Cursor, c.Complete → S c → c.Comes l (p.runFrom c)
  tied : ∀ {shared rest rest₂ : List Token} {c c₂ : Cursor}, Agrees shared rest rest₂ c c₂ →
    shared.length ≤ m → S c → Tied Hangs rest rest₂ (p.runFrom c) (p₂.runFrom c₂)

variable {S : Cursor → Prop} {m l n : Nat} {H Hangs : List Token → Prop} {p p₂ : Parse α}
  {k k₂ : α → Parse β} {rest : List Token} {c c' : Cursor} {a : α} {token : Token}

theorem settles_of_passed (hrun : p.runFrom c = (.ok a, c')) (hpast : c'.left.length ≤ rest.length)
    (hk : c'.Comes l ((k a).runFrom c')) : Settles Hangs rest ((p >>= k).runFrom c) := by
  rw [bind_of_ok hrun]
  exact .inl (hk.forward.length_le.trans hpast)

namespace Steady

theorem mono (h : Steady S m l Hangs p p₂) (hle : n ≤ l) :
    Steady S m n Hangs p p₂ :=
  ⟨fun c hc hS => (h.comes c hc hS).mono hle, h.tied⟩

theorem any (h : Steady S m l Hangs p p₂) : Steady S m 0 Hangs p p₂ :=
  h.mono (Nat.zero_le _)

theorem within {fewer : Nat} (h : Steady S m l Hangs p p₂) (hle : fewer ≤ m) :
    Steady S fewer l Hangs p p₂ :=
  ⟨h.comes, fun hagrees hlen => h.tied hagrees (hlen.trans hle)⟩

theorem hanging (h : Steady S m l Never p p₂) : Steady S m l Hangs p p₂ where
  comes := h.comes
  tied := fun hagrees hlen hS => by
    have htied := h.tied hagrees hlen hS
    generalize p.runFrom _ = r at htied
    generalize p₂.runFrom _ = r₂ at htied
    cases htied with
    | together agrees => exact .together agrees
    | loose settles => exact .loose (settles.imp_right fun ⟨_, _, _, _, hangs, _⟩ => hangs.elim)

/-- **One computation after the other.**  Where the first one hangs, what follows has to settle. -/
theorem bind {T : α → Cursor → Prop} (hp : Steady S m l H p p₂)
    (hpost : ∀ a c c', c.Complete → S c → p.runFrom c = (.ok a, c') → T a c')
    (hk : ∀ a, Steady (T a) (m - l) n Hangs (k a) (k₂ a))
    (hsettles : ∀ a c shared rest, shared ≠ [] → H shared → c.left = shared ++ rest →
      Ended c.left → T a c → Settles Hangs rest ((k a).runFrom c)) :
    Steady S m (l + n) Hangs (p >>= k) (p₂ >>= k₂) where
  comes := fun c hc hS => comes_bind hc (hp.comes c hc hS) fun a c' hrun hc' =>
    (hk a).comes c' hc' (hpost a c c' hc hS hrun)
  tied := by
    intro shared rest rest₂ c c₂ h hlen hS
    have hc := complete_of_ended h.ended
    have hcomes := hp.comes c hc hS
    have htied := hp.tied h hlen hS
    rw [runFrom_bind, runFrom_bind]
    rcases hrun : p.runFrom c with ⟨result, c'⟩
    rcases hrun₂ : p₂.runFrom c₂ with ⟨result₂, c₂'⟩
    rw [hrun] at hcomes htied
    rw [hrun₂] at htied
    cases htied with
    | together agrees =>
        cases result with
        | error fault => exact .together agrees
        | ok a =>
            have hshort := h.shorter agrees hcomes
            exact (hk a).tied agrees (by omega) (hpost a c c' hc hS hrun)
    | loose settles =>
        refine .loose ?_
        cases result with
        | error fault =>
            rcases settles with hpast | ⟨_, _, hok, -⟩
            · exact .inl hpast
            · cases hok
        | ok a =>
            obtain ⟨hleft, hfault, -⟩ := hcomes.of_ok
            have hc' := hc.forward hleft hfault
            have hT := hpost a c c' hc hS hrun
            rcases settles with hpast | ⟨_, shared', hok, hne, hangs, hrest⟩
            · exact .inl (((hk a).comes c' hc' hT).forward.length_le.trans hpast)
            · refine hsettles a c' shared' rest hne hangs hrest ?_ hT
              obtain ⟨passed, hpassed⟩ := hleft
              exact Ended.of_append (hpassed ▸ h.ended) c'.left_ne_nil

theorem first (hp : Steady S m l Never p p₂)
    (hk : ∀ a, Steady Anywhere (m - l) n Hangs (k a) (k₂ a)) :
    Steady S m l Hangs (p >>= k) (p₂ >>= k₂) :=
  (hp.bind (fun _ _ _ _ _ _ => trivial) hk fun _ _ _ _ _ hangs => hangs.elim).mono
    (Nat.le_add_right _ _)

theorem later (hp : Steady S m l Never p p₂)
    (hk : ∀ a, Steady Anywhere (m - l) n Hangs (k a) (k₂ a)) :
    Steady S m n Hangs (p >>= k) (p₂ >>= k₂) :=
  (hp.bind (fun _ _ _ _ _ _ => trivial) hk fun _ _ _ _ _ hangs => hangs.elim).mono
    (Nat.le_add_left _ _)

theorem pure (a : α) : Steady S m 0 Hangs (Pure.pure a) (Pure.pure a) :=
  ⟨fun _ _ _ => .stay a rfl rfl rfl, fun h _ _ => .together h⟩

theorem result (hp : Steady S m l Hangs p p₂) (f : α → β) :
    Steady S m l Hangs (p >>= fun a => Pure.pure (f a)) (p₂ >>= fun a => Pure.pure (f a)) := by
  refine hp.bind (T := fun _ => Anywhere) (fun _ _ _ _ _ _ => trivial) (fun a => .pure (f a)) ?_
  exact fun a c shared rest hne hangs hleft _ _ => .inr ⟨f a, shared, rfl, hne, hangs, hleft⟩

theorem discard (hp : Steady S m l Never p p₂) :
    Steady S m l Hangs (Functor.discard p) (Functor.discard p₂) :=
  hp.hanging.result fun _ => PUnit.unit

theorem stops (cause : Item → ParseCause)
    (hp : ∀ c, p.runFrom c = (.error (.parse (cause c.current.item) c.place), c))
    (hp₂ : ∀ c, p₂.runFrom c = (.error (.parse (cause c.current.item) c.place), c)) :
    Steady S m l Hangs p p₂ where
  comes := fun c _ _ => by
    rw [hp]
    exact .complained _ List.suffix_rfl
  tied := fun h _ _ => by
    rw [hp, hp₂, h.current, h.place]
    exact .together h

theorem complain (cause : ParseCause) :
    Steady S m l Hangs (Parse.complain cause : Parse α) (Parse.complain cause) :=
  .stops (fun _ => cause) (fun _ => rfl) fun _ => rfl

theorem expected (wanted : String) :
    Steady S m l Hangs (Parse.expected wanted : Parse α) (Parse.expected wanted) :=
  .stops (fun item => .expected wanted item.describe) (fun _ => rfl) fun _ => rfl

theorem complainIf {b : Prop} [Decidable b] (cause : ParseCause)
    (hk : Steady S m l Hangs p p₂) :
    Steady S m l Hangs (if b then (Parse.complain cause : Parse PUnit) >>= fun _ => p else p)
      (if b then (Parse.complain cause : Parse PUnit) >>= fun _ => p₂ else p₂) := by
  split
  · exact .stops (fun _ => cause) (fun _ => rfl) fun _ => rfl
  · exact hk

theorem current {k k₂ : Token → Parse β}
    (hk : ∀ token, Steady (fun c => S c ∧ c.current = token) m l Hangs (k token) (k₂ token)) :
    Steady S m l Hangs (Parse.current >>= k) (Parse.current >>= k₂) where
  comes := fun c hc hS => (hk c.current).comes c hc ⟨hS, rfl⟩
  tied := fun {_ _ _ c _} h hlen hS => by
    rw [runFrom_bind_current, runFrom_bind_current, h.current]
    exact (hk c.current).tied h hlen ⟨hS, rfl⟩

theorem at? {kind : Kind} {k k₂ : Bool → Parse β}
    (hk : ∀ token : Token, Steady (fun c => S c ∧ c.current = token) m l Hangs
      (k (token.is kind)) (k₂ (token.is kind))) :
    Steady S m l Hangs (Parse.at? kind >>= k) (Parse.at? kind >>= k₂) := by
  have h : Steady S m l Hangs (Parse.current >>= fun token => k (token.is kind))
    (Parse.current >>= fun token => k₂ (token.is kind)) := current hk
  exact h

theorem loops {k : Nat → Parse β} (hk : ∀ n, Steady S m l Hangs (k n) (k n)) :
    Steady S m l Hangs (get >>= fun c : Cursor => k c.loops)
      (get >>= fun c : Cursor => k c.loops) where
  comes := fun c => (hk c.loops).comes c
  tied := fun h hlen hS => by
    rw [runFrom_bind_get, runFrom_bind_get, h.loops]
    exact (hk _).tied h hlen hS

/-- **A loop with as much fuel as there are tokens.**  The two readings do not have the same fuel,
but each round takes a token from the shared part, so neither runs out of it before the part is
passed. -/
theorem loop {σ : Type} {k : Nat → σ → Parse β}
    (hzero : ∀ s, Steady Anywhere 0 0 Hangs (k 0 s) (k 0 s))
    (hround : ∀ {n n₂ m : Nat} {s : σ}, (∀ s', Steady Anywhere m 0 Hangs (k n s') (k n₂ s')) →
      Steady Anywhere (m + 1) 0 Hangs (k (n + 1) s) (k (n₂ + 1) s)) (s : σ) :
    Steady S m 0 Hangs (get >>= fun c : Cursor => k (c.remaining + 1) s)
      (get >>= fun c : Cursor => k (c.remaining + 1) s) := by
  have hcomes : ∀ (n : Nat) (s : σ), Steady Anywhere 0 0 Hangs (k n s) (k n s) := by
    intro n
    induction n with
    | zero => exact hzero
    | succ n ih => exact fun s => (hround ih).within (Nat.zero_le _)
  have htied : ∀ (n n₂ m : Nat) (s : σ), m ≤ n → m ≤ n₂ →
      Steady Anywhere m 0 Hangs (k n s) (k n₂ s) := by
    intro n n₂ m
    induction m generalizing n n₂ with
    | zero =>
        -- an empty part is shared by nothing
        refine fun s _ _ => ⟨(hcomes n s).comes, fun h hlen _ => ?_⟩
        exact absurd (List.length_eq_zero_iff.1 (Nat.le_zero.1 hlen)) h.shared_ne_nil
    | succ m ih =>
        intro s hn hn₂
        obtain ⟨n, rfl⟩ := Nat.exists_eq_add_of_le' hn
        obtain ⟨n₂, rfl⟩ := Nat.exists_eq_add_of_le' hn₂
        exact hround fun s' => ih (n + m) (n₂ + m) s' (by omega) (by omega)
  exact ⟨fun c hc _ => (hcomes _ s).comes c hc trivial,
    fun h _ _ => (htied _ _ _ s h.fuel.1 h.fuel.2).tied h (Nat.le_refl _) trivial⟩

theorem loopThen {p : Cursor → Parse α} (hp : Steady S m 0 Never (get >>= p) (get >>= p))
    (hk : ∀ a, Steady Anywhere m n Hangs (k a) (k a)) :
    Steady S m 0 Hangs (get >>= fun c => p c >>= k) (get >>= fun c => p c >>= k) := by
  have h := hp.first hk
  rwa [bind_assoc] at h

/-! ### Moving -/

theorem advance (hS : ∀ c, S c → c.current.is .eof = false) :
    Steady S m 1 Never Parse.advance Parse.advance where
  comes := fun c hc h => advance_comes hc (hS c h)
  tied := by
    intro shared rest rest₂ c c₂ h _ hc
    obtain ⟨token, shared, rfl⟩ := List.exists_cons_of_ne_nil h.shared_ne_nil
    obtain rfl : c.current = token := current_of_left h.left
    have heof := hS c hc
    have heof₂ : c₂.current.is .eof = false := h.current ▸ heof
    obtain ⟨c', hrun, hpass⟩ := advance_spec h.ended heof
    obtain ⟨c₂', hrun₂, hpass₂⟩ := advance_spec h.ended₂ heof₂
    rw [hrun, hrun₂]
    cases shared with
    | nil =>
        have hleft : c'.left = rest := hpass.left_eq h.left
        exact .loose (.inl (by rw [hleft]))
    | cons next shared =>
        rw [h.current] at hpass₂
        have hrow : Agrees ([c.current] ++ next :: shared) rest rest₂ c c₂ := h
        exact .together (hrow.passes (List.cons_ne_nil _ _) hpass hpass₂
          (hrun ▸ advance_comes (complete_of_ended h.ended) heof)
          (hrun₂ ▸ advance_comes (complete_of_ended h.ended₂) heof₂))

theorem move {p p₂ : Parse β} (hne : token.is .eof = false)
    (hp : Steady Anywhere (m - 1) n Hangs p p₂) :
    Steady (fun c => S c ∧ c.current = token) m 1 Hangs (Parse.advance >>= fun _ => p)
      (Parse.advance >>= fun _ => p₂) :=
  (advance (S := fun c => S c ∧ c.current = token) fun _ hc => hc.2 ▸ hne).first fun _ => hp

theorem moveItem {p p₂ : Parse β} {item : Item} (hitem : token.item = item)
    (hp : Steady Anywhere (m - 1) n Hangs p p₂) (hne : item.is .eof = false) :
    Steady (fun c => S c ∧ c.current = token) m 1 Hangs (Parse.advance >>= fun _ => p)
      (Parse.advance >>= fun _ => p₂) :=
  move (by rw [Token.is, hitem, hne]) hp

end Steady

theorem eat_steady {kind : Kind} (hkind : kind ≠ .eof) :
    Steady S m 1 Never (eat kind) (eat kind) := by
  refine .current fun token => ?_
  cases his : token.is kind with
  | false =>
      exact .stops (fun item => .expected kind.wanted item.describe) (fun _ => rfl) fun _ => rfl
  | true =>
      have hne : token.is .eof = false := Token.is_of_ne his hkind
      simp only [hne, Bool.not_true, Bool.not_false, Bool.false_eq_true, if_false, if_true]
      exact .move hne (.pure _)

theorem eatSymbol_steady (s : Symbol) : Steady S m 1 Never (eatSymbol s) (eatSymbol s) :=
  eat_steady (by simp)

theorem eatKeyword_steady (k : Keyword) : Steady S m 1 Never (eatKeyword k) (eatKeyword k) :=
  eat_steady (by simp)

theorem name_steady : Steady S m 1 Never name name := by
  refine .current fun token => ?_
  split
  · rename_i hname
    refine .move ?_ (.pure _)
    cases hitem : token.item <;> simp_all [Item.name?, Token.is, Item.is, Item.kind]
  · exact .expected _

theorem identifier_steady : Steady S m 1 Never identifier identifier := by
  refine (eat_steady (by simp)).first (n := 0) fun token => ?_
  split
  · exact .pure _
  · exact .expected _

theorem skipSeparators_steady : Steady S m 0 Never skipSeparators skipSeparators := by
  rw [skipSeparators_eq]
  refine .loop (k := fun n (_ : Unit) => skipF isSeparator n) (fun _ => .pure _) (fun ih => ?_) ()
  refine .current fun token => ?_
  split
  · rename_i hsep
    exact .any (.move (isSeparator_not_eof hsep) (ih ()))
  · exact .pure _

/-! ### Levels -/

theorem enter_steady : Steady S m 0 Never enter enter where
  comes := fun c _ _ => by
    show c.Comes 0 ((if (maxNesting : Int) < c.nesting + 1 then complain .nesting
      else pure () : Parse Unit).runFrom { c with nesting := c.nesting + 1 })
    split
    · have hleft : ({ c with nesting := c.nesting + 1 } : Cursor).left <:+ c.left := List.suffix_rfl
      exact .complained .nesting hleft
    · exact .stay () rfl rfl rfl
  tied := fun {shared rest rest₂ c c₂} h hlen hS => by
    have hopen := h.level (congrArg (· + 1) h.nesting) h.loops
    show Tied Never rest rest₂
      ((if (maxNesting : Int) < c.nesting + 1 then complain .nesting
        else pure () : Parse Unit).runFrom { c with nesting := c.nesting + 1 })
      ((if (maxNesting : Int) < c₂.nesting + 1 then complain .nesting
        else pure () : Parse Unit).runFrom { c₂ with nesting := c₂.nesting + 1 })
    rw [h.nesting] at hopen ⊢
    split
    · exact (Steady.complain .nesting (S := Anywhere) (l := 0)).tied hopen hlen trivial
    · exact .together hopen

theorem leave_steady : Steady S m 0 Never leave leave :=
  ⟨fun _ _ _ => .stay () rfl rfl rfl,
    fun h _ _ => .together (h.level (congrArg (· - 1) h.nesting) h.loops)⟩

theorem Steady.enterMove {p p₂ : Parse β} (hne : token.is .eof = false)
    (hp : Steady Anywhere (m - 1) n Hangs p p₂) :
    Steady (fun c => S c ∧ c.current = token) m 1 Hangs
      (Parse.enter >>= fun _ => Parse.advance >>= fun _ => p)
      (Parse.enter >>= fun _ => Parse.advance >>= fun _ => p₂) := by
  refine (enter_steady.bind (T := fun _ c => True ∧ c.current = token) ?_ (fun _ => .move hne hp)
    fun _ _ _ _ _ hangs => hangs.elim).mono (Nat.le_add_left _ _)
  intro _ c c' _ hS hrun
  obtain ⟨-, rfl⟩ := enter_eq_ok hrun
  exact ⟨trivial, hS.2⟩

theorem inLoop_steady (hp : Steady Anywhere m l Never p p₂) :
    Steady S m l Never (inLoop p) (inLoop p₂) where
  comes := fun c hc _ => by
    have h := hp.comes { c with loops := c.loops + 1 } hc trivial
    show c.Comes l ((p.runFrom { c with loops := c.loops + 1 }).1,
      { (p.runFrom { c with loops := c.loops + 1 }).2 with
        loops := (p.runFrom { c with loops := c.loops + 1 }).2.loops - 1 })
    generalize p.runFrom { c with loops := c.loops + 1 } = r at h
    cases h with
    | done forward fault file taken => exact .done forward fault file taken
    | @complained c₁ cause forward =>
        have hleft : ({ c₁ with loops := c₁.loops - 1 } : Cursor).left <:+ c.left := forward
        exact .complained cause hleft
    | met forward met => exact .met forward met
  tied := fun {shared rest rest₂ c c₂} h hlen _ => by
    have htied := hp.tied (h.level h.nesting (congrArg (· + 1) h.loops)) hlen trivial
    show Tied Never rest rest₂
      ((p.runFrom { c with loops := c.loops + 1 }).1,
        { (p.runFrom { c with loops := c.loops + 1 }).2 with
          loops := (p.runFrom { c with loops := c.loops + 1 }).2.loops - 1 })
      ((p₂.runFrom { c₂ with loops := c₂.loops + 1 }).1,
        { (p₂.runFrom { c₂ with loops := c₂.loops + 1 }).2 with
          loops := (p₂.runFrom { c₂ with loops := c₂.loops + 1 }).2.loops - 1 })
    generalize p.runFrom { c with loops := c.loops + 1 } = r at htied
    generalize p₂.runFrom { c₂ with loops := c₂.loops + 1 } = r₂ at htied
    cases htied with
    | together h => exact .together (h.level h.nesting (congrArg (· - 1) h.loops))
    | loose settles =>
        exact .loose (settles.imp_right fun ⟨_, _, _, _, hangs, _⟩ => hangs.elim)

end Parse

/-! ### Expressions -/

/-- Inner rules that are steady and take a token.  Only a statement may hang, behind a
conditional. -/
structure Rules.Steady (inner : Rules) : Prop where
  expr : ∀ {S : Cursor → Prop} {m : Nat},
    Parse.Steady S m 1 Cursor.Never inner.expr inner.expr
  unary : ∀ {S : Cursor → Prop} {m : Nat},
    Parse.Steady S m 1 Cursor.Never inner.unary inner.unary
  negation : ∀ {S : Cursor → Prop} {m : Nat},
    Parse.Steady S m 1 Cursor.Never inner.negation inner.negation
  statement : ∀ {S : Cursor → Prop} {m : Nat},
    Parse.Steady S m 1 Cursor.InLines inner.statement inner.statement

namespace Grammar

open Cursor Parse

variable {inner : Rules} {S : Cursor → Prop} {m : Nat} {shared rest rest₂ : List Token}
  {c c₂ : Cursor}

theorem elementsF_steady (close : Symbol) {element : Parse Node}
    (helement : ∀ {S : Cursor → Prop} {m : Nat}, Steady S m 1 Never element element)
    (acc : List Node) :
    Steady S m 0 Never (get >>= fun c : Cursor => elementsF close element (c.remaining + 1) acc)
      (get >>= fun c : Cursor => elementsF close element (c.remaining + 1) acc) := by
  refine .loop (fun _ => .pure _) (fun {i j m acc} ih => ?_) acc
  rw [elementsF, elementsF]
  refine .at? fun token => ?_
  split
  · exact .pure _
  · refine (helement.first (n := 0) fun node => .at? fun token => ?_).any
    split
    · exact .pure _
    · rename_i hcomma
      have hne : token.is .eof = false := Token.is_of_ne (by simpa using hcomma) (by simp)
      exact .any (.move hne ((ih _).within (by omega)))

theorem elements_steady (opening closing : Symbol) {element : Parse Node}
    (helement : ∀ {S : Cursor → Prop} {m : Nat}, Steady S m 1 Never element element) :
    Steady S m 1 Never (elements opening closing element) (elements opening closing element) :=
  enter_steady.later fun _ => (eatSymbol_steady _).discard.first fun _ =>
    .loopThen (elementsF_steady closing helement []) fun _ =>
      (eatSymbol_steady _).discard.first fun _ => leave_steady.result _

theorem enclosed_steady (opening closing : Symbol) (hin : inner.Steady) :
    Steady S m 1 Never (enclosed opening closing inner) (enclosed opening closing inner) :=
  enter_steady.later fun _ => (eatSymbol_steady _).discard.first fun _ => hin.expr.first fun _ =>
    (eatSymbol_steady _).discard.first fun _ => leave_steady.result _

theorem arguments_steady (hin : inner.Steady) :
    Steady S m 1 Never (arguments inner) (arguments inner) :=
  elements_steady _ _ hin.expr

theorem globalKey_steady (hin : inner.Steady) :
    Steady S m 1 Never (globalKey inner) (globalKey inner) := by
  refine .current fun token => ?_
  split
  · rename_i hitem
    exact .moveItem hitem (.current fun _ => name_steady.result _) rfl
  · exact enclosed_steady _ _ hin
  · exact .expected _

theorem factor_steady (hin : inner.Steady) :
    Steady S m 1 Never (factor inner) (factor inner) := by
  refine .current fun token => ?_
  split
  case h_7 => exact enclosed_steady _ _ hin
  case h_8 => exact (elements_steady _ _ hin.expr).result _
  case h_9 hitem | h_10 hitem =>
    exact .moveItem hitem (name_steady.first fun _ => (arguments_steady hin).result _) rfl
  case h_11 hitem =>
    refine .moveItem hitem (name_steady.first (n := 0) fun _ => .at? fun token => ?_) rfl
    split
    · exact .any ((arguments_steady hin).result _)
    · exact .pure _
  case h_12 hitem => exact .moveItem hitem ((globalKey_steady hin).result _) rfl
  case h_13 => exact .expected _
  -- the other factors are one token
  all_goals
    rename_i hitem
    exact .moveItem hitem (.pure _) rfl

theorem trailersF_steady (hin : inner.Steady) (node : Node) :
    Steady S m 0 Never (get >>= fun c : Cursor => trailersF inner (c.remaining + 1) node)
      (get >>= fun c : Cursor => trailersF inner (c.remaining + 1) node) := by
  refine .loop (fun _ => .pure _) (fun {i j m node} ih => ?_) node
  rw [trailersF, trailersF]
  refine .current fun token => ?_
  split
  · rename_i hitem
    exact .any (.moveItem hitem (name_steady.first fun _ => (ih _).within (by omega)) rfl)
  · exact .any ((enclosed_steady _ _ hin).first fun _ => ih _)
  · exact .any ((arguments_steady hin).first fun _ => ih _)
  · exact .pure _

theorem primary_steady (hin : inner.Steady) :
    Steady S m 1 Never (primary inner) (primary inner) := by
  rw [primary_eq]
  exact (factor_steady hin).first fun node => trailersF_steady hin node

theorem not_eof_of_read {t : Tier} {token : Token} {op : Operator}
    (h : t.read token.item = some op) : token.is .eof = false := by
  cases hitem : token.item with
  | eof =>
      rw [hitem] at h
      cases t <;> cases h
  | _ => rw [Token.is, hitem]; rfl

theorem chain_steady (t : Tier) {operand : Parse Node}
    (hoperand : ∀ {S : Cursor → Prop} {m : Nat}, Steady S m 1 Never operand operand) :
    Steady S m 1 Never (chain t.read operand) (chain t.read operand) := by
  rw [chain_eq]
  refine hoperand.first fun left => .loop (fun _ => .pure _) (fun {i j m left} ih => ?_) left
  rw [chainF, chainF]
  refine .current fun token => ?_
  split
  · exact .pure _
  · rename_i op hop
    exact .any (.move (not_eof_of_read hop) (hoperand.first fun _ => (ih _).within (by omega)))

theorem unary_steady (hin : inner.Steady) :
    Steady S m 1 Never (unary inner) (unary inner) := by
  refine .current fun token => ?_
  split
  · rename_i op hop
    exact .enterMove (not_eof_of_read (t := .sum) hop)
      (hin.unary.first fun _ => leave_steady.result _)
  · exact primary_steady hin

theorem comparison_steady (hin : inner.Steady) :
    Steady S m 1 Never (comparison inner) (comparison inner) :=
  chain_steady .comparison (chain_steady .sum (chain_steady .product (unary_steady hin)))

theorem negation_steady (hin : inner.Steady) :
    Steady S m 1 Never (negation inner) (negation inner) := by
  refine .current fun token => ?_
  split
  · rename_i hword
    exact .enterMove (Token.is_of_ne hword (by simp))
      (hin.negation.first fun _ => leave_steady.result _)
  · exact comparison_steady hin

theorem expr_steady (hin : inner.Steady) : Steady S m 1 Never (expr inner) (expr inner) :=
  chain_steady .disjunction (chain_steady .conjunction (negation_steady hin))

/-! ### Statements -/

theorem endStatement_steady : Steady S m 0 Never endStatement endStatement := by
  refine .current fun token => ?_
  split
  · exact .stops (fun item => .expected "end of statement" item.describe) (fun _ => rfl)
      fun _ => rfl
  · exact skipSeparators_steady

theorem endStatement_passes (hne : shared ≠ []) (h : InLines shared)
    (hleft : c.left = shared ++ rest) (he : Ended c.left) :
    ∃ c', endStatement.runFrom c = (.ok (), c') ∧ c'.left.length ≤ rest.length ∧ c'.Complete := by
  obtain ⟨c', hskip, hpass⟩ := skipSeparators_spec he
  have hends : endsStatement c.current = true := by
    rw [endsStatement, isSeparator, show c.current.is .newline = true from h.current hne hleft]
    rfl
  have hrun : endStatement.runFrom c = (.ok (), c') := by
    rw [endStatement, runFrom_bind_current, hends]
    exact hskip
  have hsep : ∀ t ∈ shared, isSeparator t = true :=
    fun t ht => Bool.or_eq_true_iff.2 (.inl (h t ht))
  have hlen := congrArg List.length hpass.left
  rw [hleft, List.takeWhile_append_of_pos hsep] at hlen
  simp only [List.length_append] at hlen
  exact ⟨c', hrun, by omega, complete_of_ended (hpass.ended he)⟩

theorem statementsF_steady (stops : Token → Bool) {statement : Parse Node}
    (hstatement : ∀ {S : Cursor → Prop} {m : Nat},
      Steady S m 1 InLines statement statement) (acc : List Node) :
    Steady S m 0 Never
      (get >>= fun c : Cursor => statementsF stops statement (c.remaining + 1) acc)
      (get >>= fun c : Cursor => statementsF stops statement (c.remaining + 1) acc) := by
  refine .loop (fun _ => .pure _) (fun {i j m acc} ih => ?_) acc
  rw [statementsF, statementsF]
  refine .current fun token => ?_
  split
  · exact .pure _
  · refine .any (hstatement.bind (T := fun _ => Anywhere) (fun _ _ _ _ _ _ => trivial)
      (fun node => endStatement_steady.first fun _ => ih (node :: acc)) ?_)
    intro node c shared rest hne hlines hleft he _
    obtain ⟨c', hrun, hpast, hc'⟩ := endStatement_passes hne hlines hleft he
    exact settles_of_passed hrun hpast ((ih (node :: acc)).comes c' hc' trivial)

theorem statements_steady (stops : Token → Bool) {statement : Parse Node}
    (hstatement : ∀ {S : Cursor → Prop} {m : Nat}, Steady S m 1 InLines statement statement) :
    Steady S m 0 Never (statements stops statement) (statements stops statement) :=
  skipSeparators_steady.first fun _ => statementsF_steady stops hstatement []

theorem block_steady (hin : inner.Steady) : Steady S m 1 Never (block inner) (block inner) :=
  enter_steady.later fun _ => (eatSymbol_steady _).first fun _ =>
    (statements_steady stopsBlock hin.statement).first fun _ =>
      (eatSymbol_steady _).discard.first fun _ => leave_steady.result _

theorem declaration_steady (hin : inner.Steady) :
    Steady S m 1 Never (declaration inner) (declaration inner) := by
  refine (eatKeyword_steady _).first fun _ => identifier_steady.first (n := 0) fun _ =>
    .at? fun token => ?_
  split
  · rename_i hassign
    exact .any (.move (Token.is_of_ne hassign (by simp)) ((expr_steady hin).result _))
  · exact .pure _

theorem repetition_steady (hin : inner.Steady) :
    Steady S m 1 Never (repetition inner) (repetition inner) :=
  (eatKeyword_steady _).first fun _ => (expr_steady hin).first fun _ =>
    (inLoop_steady (block_steady hin)).result _

theorem iteration_steady (hin : inner.Steady) :
    Steady S m 1 Never (iteration inner) (iteration inner) := by
  refine (eatKeyword_steady _).first fun _ => identifier_steady.first fun _ =>
    (eatKeyword_steady _).discard.first fun _ => (expr_steady hin).first (n := 1) fun _ =>
      .at? fun token => ?_
  have hbody : ∀ {S : Cursor → Prop} {m : Nat} (node : Node → Node),
      Steady S m 1 Never (inLoop (block inner) >>= fun body => pure (node body))
        (inLoop (block inner) >>= fun body => pure (node body)) :=
    fun node => (inLoop_steady (block_steady hin)).result node
  split
  · rename_i hrange
    exact .move (Token.is_of_ne hrange (by simp)) ((expr_steady hin).first fun _ => hbody _)
  · exact hbody _

theorem loopControl_steady {token : Token} {k : Keyword} {node : Line → Node}
    (hitem : token.item = .keyword k) :
    Steady (fun c => S c ∧ c.current = token) m 1 Never (loopControl k node)
      (loopControl k node) := by
  refine .current fun token' => .loops (k := fun n => if (n == 0) = true then
    (complain (.outsideLoop k.text) : Parse PUnit) >>= fun _ => advance >>= fun _ =>
      pure (node token'.line) else advance >>= fun _ => pure (node token'.line)) fun n => ?_
  exact .complainIf _ ((Steady.advance fun c hc => by rw [hc.1.2, Token.is, hitem]; rfl).result _)

theorem cooldown_steady (hin : inner.Steady) :
    Steady S m 1 Never (cooldown inner) (cooldown inner) :=
  (eatKeyword_steady _).first fun _ => (eatKeyword_steady _).discard.first fun _ =>
    (eatKeyword_steady _).discard.first fun _ => (expr_steady hin).result _

theorem bareArguments_steady (hin : inner.Steady) :
    Steady S m 1 Never (bareArguments inner) (bareArguments inner) := by
  refine (expr_steady hin).first fun node =>
    .loop (k := bareArgumentsF inner) (fun _ => .pure _) (fun {i j m acc} ih => ?_) [node]
  rw [bareArgumentsF, bareArgumentsF]
  refine .at? fun token => ?_
  split
  · rename_i hcomma
    exact .any (.move (Token.is_of_ne hcomma (by simp))
      ((expr_steady hin).first fun _ => (ih _).within (by omega)))
  · exact .pure _

theorem longCall_steady (hin : inner.Steady) :
    Steady S m 1 Never (longCall inner) (longCall inner) := by
  refine (eatKeyword_steady _).first fun _ => (eatKeyword_steady _).discard.first (n := 0) fun _ =>
    .current fun token => ?_
  split
  · rename_i hitem
    refine .any (.moveItem (n := 0) hitem (.at? fun token => ?_) rfl)
    split
    · rename_i hwith
      exact .any (.move (Token.is_of_ne hwith (by simp)) ((bareArguments_steady hin).result _))
    · exact .pure _
  · exact .expected _

theorem shortCall_steady (hin : inner.Steady) :
    Steady S m 1 Never (shortCall inner) (shortCall inner) := by
  refine (eatSymbol_steady _).first fun _ => name_steady.first (n := 0) fun _ =>
    .at? fun token => ?_
  split
  · exact .any ((arguments_steady hin).result _)
  · refine .current fun token => ?_
    split
    · exact .pure _
    · exact .any ((bareArguments_steady hin).result _)

theorem assignment_steady (hin : inner.Steady) :
    Steady S m 1 Never (assignment inner) (assignment inner) := by
  refine .current fun token => (expr_steady hin).first (n := 0) fun node => .at? fun token => ?_
  split
  · rename_i hassign
    exact .complainIf _
      (.any (.move (Token.is_of_ne hassign (by simp)) ((expr_steady hin).result _)))
  · exact .pure _

/-! ### Conditionals -/

theorem tied_of_passes {α : Type} {p : Parse α} {a : α} {tokens : List Token} {c' c₂' : Cursor}
    {Hangs : List Token → Prop} (hends : Ends 0 p)
    (h : Agrees (tokens ++ shared) rest rest₂ c c₂) (hne : shared ≠ [])
    (hrun : p.runFrom c = (.ok a, c')) (hrun₂ : p.runFrom c₂ = (.ok a, c₂'))
    (hpass : c.Passes tokens c') (hpass₂ : c₂.Passes tokens c₂') :
    Tied Hangs rest rest₂ (p.runFrom c) (p.runFrom c₂) := by
  have hcomes := hrun ▸ hends c (complete_of_ended h.ended)
  have hcomes₂ := hrun₂ ▸ hends c₂ (complete_of_ended h.ended₂)
  rw [hrun, hrun₂]
  exact .together (h.passes hne hpass hpass₂ hcomes hcomes₂)

theorem skipToElse_row {lines more : List Token} {t : Token} (he : Ended c.left)
    (hlines : InLines lines) (ht : t.isLineEnd = false) (hleft : c.left = lines ++ t :: more) :
    ∃ c', skipToElse.runFrom c = (.ok (), c') ∧
      c.Passes
        (if t.is (.keyword .elifWord) || t.is (.keyword .elseWord) then lines else []) c' := by
  obtain ⟨c', hrun, hpass, -⟩ := skipToElse_spec he
  have hfollows : elseFollows c.left =
      (t.is (.keyword .elifWord) || t.is (.keyword .elseWord)) := by
    rw [elseFollows, hleft, List.dropWhile_append_of_pos hlines,
      List.dropWhile_cons_of_neg (Bool.eq_false_iff.1 ht)]
    rfl
  have htake : c.left.takeWhile Token.isLineEnd = lines := by
    rw [hleft]
    exact takeWhile_row hlines ht
  rw [hfollows, htake] at hpass
  exact ⟨c', hrun, hpass⟩

theorem skipToElse_steady : Steady S m 0 InLines skipToElse skipToElse := by
  refine ⟨fun c hc _ => skipToElse_ends c hc, fun {shared rest rest₂ c c₂} h _ _ => ?_⟩
  rcases inLines_or_exists shared with hlines | ⟨lines, t, more, rfl, hlines, ht⟩
  · -- all that is shared are ends of lines, so the rows may part behind them
    obtain ⟨c', hrun, hpass, -⟩ := skipToElse_spec h.ended
    rw [hrun]
    refine .loose ?_
    have hlen := congrArg List.length hpass.left
    rw [h.left] at hlen hpass
    split at hlen
    · rw [List.takeWhile_append_of_pos hlines] at hlen
      simp only [List.length_append] at hlen
      exact .inl (show c'.left.length ≤ rest.length by omega)
    · rename_i helse
      rw [if_neg helse] at hpass
      exact .inr ⟨(), shared, rfl, h.shared_ne_nil, hlines, hpass.left.symm.trans h.left⟩
  · obtain ⟨c', hrun, hpass⟩ := skipToElse_row h.ended hlines ht
      (show c.left = lines ++ t :: (more ++ rest) by
        rw [h.left, List.append_assoc, List.cons_append])
    obtain ⟨c₂', hrun₂, hpass₂⟩ := skipToElse_row h.ended₂ hlines ht
      (show c₂.left = lines ++ t :: (more ++ rest₂) by
        rw [h.left₂, List.append_assoc, List.cons_append])
    split at hpass
    · rename_i hword
      rw [if_pos hword] at hpass₂
      exact tied_of_passes skipToElse_ends h (List.cons_ne_nil _ _) hrun hrun₂ hpass hpass₂
    · rename_i hword
      rw [if_neg hword] at hpass₂
      exact tied_of_passes skipToElse_ends (List.nil_append _ ▸ h) h.shared_ne_nil hrun hrun₂ hpass
        hpass₂

theorem atCase_steady : Steady S m 0 AtElse atCase atCase := by
  refine ⟨fun c hc _ => atCase_ends c hc, fun {shared rest rest₂ c c₂} h _ _ => ?_⟩
  obtain ⟨c', hrun, hpass⟩ := atCase_spec h.ended
  obtain ⟨c₂', hrun₂, hpass₂⟩ := atCase_spec h.ended₂
  have htogether : atCase.runFrom c₂ = ((atCase.runFrom c).1, c₂') →
      Tied AtElse rest rest₂ (atCase.runFrom c) (atCase.runFrom c₂) := by
    intro hsame
    rw [hrun] at hsame
    exact tied_of_passes atCase_ends (List.nil_append _ ▸ h) h.shared_ne_nil hrun hsame hpass hpass₂
  cases helse : c.current.is (.keyword .elseWord) with
  | false =>
      refine htogether ?_
      rw [hrun₂, hrun, h.current, helse]
      rfl
  | true =>
      obtain ⟨t, shared, rfl⟩ := List.exists_cons_of_ne_nil h.shared_ne_nil
      cases shared with
      | nil =>
          rw [hrun]
          refine .loose (.inr ⟨_, [t], rfl, List.cons_ne_nil _ _, ⟨t, rfl, ?_⟩, ?_⟩)
          · exact current_of_left h.left ▸ helse
          · exact hpass.left.symm.trans h.left
      | cons u shared =>
          refine htogether ?_
          rw [hrun₂, hrun, h.current, h.left, h.left₂]
          rfl

theorem lastBlock_steady (hin : inner.Steady) :
    Steady S m 0 Never (lastBlock inner) (lastBlock inner) := by
  refine .at? fun token => ?_
  split
  · rename_i helse
    exact .any (.move (Token.is_of_ne helse (by simp)) ((block_steady hin).result _))
  · exact .pure _

theorem furtherCases_settles (n : Nat) (acc : List (Node × Node × Line)) (hne : shared ≠ [])
    (h : InLines shared) (hleft : c.left = shared ++ rest) :
    Settles InLines rest ((furtherCases inner n acc).runFrom c) := by
  have hword : ∀ word, c.current.is (.keyword word) = false := fun word =>
    Token.is_of_ne (h.current hne hleft) (by simp)
  have hlast : (lastBlock inner >>= fun last => pure (nest acc last)).runFrom c =
      (.ok (nest acc none), c) := by
    refine bind_of_ok ?_
    rw [lastBlock, runFrom_bind_atKeyword, hword]
    rfl
  have hrun : (furtherCases inner n acc).runFrom c = (.ok (nest acc none), c) := by
    cases n with
    | zero => exact hlast
    | succ n =>
        have hcase : atCase.runFrom c = (.ok false, c) := by
          rw [atCase, runFrom_bind_atKeyword, hword, if_neg Bool.false_ne_true,
            runFrom_bind_atKeyword, hword]
          rfl
        rw [furtherCases_succ, bind_of_ok hcase]
        exact hlast
  rw [hrun]
  exact .inr ⟨_, shared, rfl, hne, h, hleft⟩

theorem caseThen_steady (hin : inner.Steady) (hS : ∀ c, S c → c.current.is .eof = false)
    (line : Line) {i j : Nat} {acc : List (Node × Node × Line)}
    (hk : ∀ acc, Steady Anywhere (m - 1) 0 InLines (furtherCases inner i acc)
      (furtherCases inner j acc)) :
    Steady S m 0 InLines (caseThen inner line fun case => furtherCases inner i (case :: acc))
      (caseThen inner line fun case => furtherCases inner j (case :: acc)) := by
  refine .any ((Steady.advance hS).first fun _ => (expr_steady hin).first fun test =>
    (block_steady hin).first fun body => skipToElse_steady.bind (T := fun _ => Anywhere)
      (fun _ _ _ _ _ _ => trivial) (fun _ => (hk _).within (by omega)) ?_)
  exact fun _ c shared rest hne hlines hleft _ _ => furtherCases_settles i _ hne hlines hleft

/-- A cursor at which a further case was found: the word that starts the case can be left, and so
can the word behind it if there are two. -/
def CaseAhead (found : Bool) (c : Cursor) : Prop :=
  found = true → c.current.is .eof = false ∧
    (c.current.is (.keyword .elseWord) = true →
      ∃ token more, c.left = c.current :: token :: more ∧ token.is .eof = false)

theorem CaseAhead.advance {u : Unit} {c c' : Cursor} (h : CaseAhead true c)
    (helse : c.current.is (.keyword .elseWord) = true) (hrun : advance.runFrom c = (.ok u, c')) :
    c'.current.is .eof = false := by
  obtain ⟨token, more, hleft, hne⟩ := (h rfl).2 helse
  rwa [current_of_left ((advance_eq_ok hrun).left_eq hleft)]

theorem furtherCases_steady (hin : inner.Steady) (acc : List (Node × Node × Line)) :
    Steady S m 0 InLines (get >>= fun c : Cursor => furtherCases inner (c.remaining + 1) acc)
      (get >>= fun c : Cursor => furtherCases inner (c.remaining + 1) acc) := by
  have hlast : ∀ {S : Cursor → Prop} {m : Nat} (acc : List (Node × Node × Line)),
      Steady S m 0 InLines (lastBlock inner >>= fun last => pure (nest acc last))
        (lastBlock inner >>= fun last => pure (nest acc last)) :=
    fun acc => ((lastBlock_steady hin).result (nest acc)).hanging
  refine .loop hlast (fun {i j m acc} ih => ?_) acc
  rw [furtherCases_succ, furtherCases_succ]
  refine atCase_steady.bind (T := CaseAhead) (n := 0) ?_ (fun found => ?_) ?_
  · rintro found c c' hc - hrun rfl
    exact atCase_eq_true hc hrun
  · cases found with
    | false => exact hlast acc
    | true =>
        refine .current fun token => ?_
        split
        · rename_i helse
          refine .any ((Steady.advance fun c hc => (hc.1 rfl).1).bind
            (T := fun _ c => c.current.is .eof = false) ?_
            (fun _ => caseThen_steady hin (fun _ hc => hc) _ fun acc => (ih acc).within (by omega))
            fun _ _ _ _ _ hangs => hangs.elim)
          rintro _ c c' - ⟨hcase, rfl⟩ hrun
          exact hcase.advance helse hrun
        · exact caseThen_steady hin (fun c hc => (hc.1 rfl).1) _ ih
  · -- behind the `else` the shared part has been passed
    rintro found c _ rest hne ⟨t, rfl, ht⟩ hleft he hcase
    obtain rfl : c.current = t := current_of_left hleft
    obtain ⟨c', hrun, hpass⟩ := advance_spec he (Token.is_of_ne ht (by simp))
    have hpast : c'.left.length ≤ rest.length := by rw [hpass.left_eq hleft]
    have hc' := complete_of_ended (hpass.ended he)
    cases found with
    | false =>
        show Settles InLines rest
          ((lastBlock inner >>= fun last => pure (nest acc last)).runFrom c)
        rw [lastBlock, bind_assoc, runFrom_bind_atKeyword, if_pos ht, bind_assoc]
        exact settles_of_passed hrun hpast
          ((((block_steady hin).result some).result (nest acc)).comes (S := Anywhere) (m := 0) c'
            hc' trivial)
    | true =>
        show Settles InLines rest ((Parse.current >>= _).runFrom c)
        rw [runFrom_bind_current, if_pos ht]
        exact settles_of_passed hrun hpast ((caseThen_steady hin (m := m) (fun _ hc => hc) _
          fun acc => (ih acc).within (by omega)).comes c' hc' (hcase.advance ht hrun))

theorem conditional_steady (hin : inner.Steady) :
    Steady S m 1 InLines (conditional inner) (conditional inner) := by
  rw [conditional_eq_alternative]
  have halternative : ∀ {m : Nat},
      Steady Anywhere m 0 InLines (alternative inner) (alternative inner) :=
    skipToElse_steady.bind (T := fun _ => Anywhere) (fun _ _ _ _ _ _ => trivial)
      (fun _ => furtherCases_steady hin [])
      fun _ c shared rest hne hlines hleft _ _ => by
        rw [runFrom_bind_get]
        exact furtherCases_settles _ _ hne hlines hleft
  exact (eatKeyword_steady _).first fun _ => (expr_steady hin).first fun _ =>
    (block_steady hin).first fun _ => halternative.result _

theorem statement_steady (hin : inner.Steady) :
    Steady S m 1 InLines (statement inner) (statement inner) := by
  refine .current fun token => ?_
  split
  · exact (declaration_steady hin).hanging
  · exact conditional_steady hin
  · exact (repetition_steady hin).hanging
  · exact (iteration_steady hin).hanging
  · rename_i hitem
    exact (loopControl_steady hitem).hanging
  · rename_i hitem
    exact (loopControl_steady hitem).hanging
  · exact (cooldown_steady hin).hanging
  · exact (longCall_steady hin).hanging
  · exact (shortCall_steady hin).hanging
  · exact (block_steady hin).hanging
  · exact (assignment_steady hin).hanging

/-- **The rules of the grammar look no further than they have to**, at every level. -/
theorem rules_steady (levels : Nat) : (rules levels).Steady := by
  induction levels with
  | zero => exact ⟨.complain _, .complain _, .complain _, .complain _⟩
  | succ levels ih =>
      exact ⟨expr_steady ih, unary_steady ih, negation_steady ih, statement_steady ih⟩

theorem statementsF_stops {stops : Token → Bool} {statement : Parse Node}
    (hstatement : Ends 1 statement) (fuel : Nat) (acc : List Node) {nodes : List Node}
    {c c' : Cursor} (hc : c.Complete) (hfuel : c.left.length ≤ fuel)
    (h : (statementsF stops statement fuel acc).runFrom c = (.ok nodes, c')) :
    stops c'.current = true := by
  induction fuel generalizing c acc with
  | zero =>
      rw [length_left] at hfuel
      omega
  | succ fuel ih =>
      rw [statementsF, runFrom_bind_current] at h
      split at h
      · rename_i hstops
        obtain ⟨-, rfl⟩ := pure_eq_ok h
        exact hstops
      · obtain ⟨node, c₁, hnode, h⟩ := bind_eq_ok h
        obtain ⟨hleft₁, hfault₁, -, hlen₁⟩ := (hnode ▸ hstatement c hc).of_ok
        have hc₁ := hc.forward hleft₁ hfault₁
        obtain ⟨_, c₂, hend, h⟩ := bind_eq_ok h
        have hcomes : c₁.Comes 0 (endStatement.runFrom c₁) :=
          (endStatement_steady (S := Anywhere) (m := 0)).comes c₁ hc₁ trivial
        obtain ⟨hleft₂, hfault₂, -, hlen₂⟩ := (hend ▸ hcomes).of_ok
        exact ih _ (hc₁.forward hleft₂ hfault₂) (by omega) h

end Grammar

/-! ### Scripts -/

namespace Parse

open Cursor

variable {c c' c₂ : Cursor} {shared rest rest₂ : List Token}

theorem program_steady (levels : Nat) {S : Cursor → Prop} {m : Nat} :
    Steady S m 0 Never
      (Grammar.statements (·.is .eof) (Grammar.statement (Grammar.rules levels)))
      (Grammar.statements (·.is .eof) (Grammar.statement (Grammar.rules levels))) :=
  Grammar.statements_steady (·.is .eof) (Grammar.statement_steady (Grammar.rules_steady levels))

theorem program_comes (hc : c.Complete) : c.Comes 0 (Parse.program.runFrom c) := by
  rw [Parse.program, entry, runFrom_bind_get]
  exact (program_steady _ (S := Anywhere) (m := 0)).comes c hc trivial

/-- **Reading a script looks no further than it has to.**  The rules that are used depend on the
levels that are open, which are the same. -/
theorem program_tied (h : Agrees shared rest rest₂ c c₂) :
    Tied Never rest rest₂ (Parse.program.runFrom c) (Parse.program.runFrom c₂) := by
  rw [Parse.program, entry, runFrom_bind_get, runFrom_bind_get, levels, levels, h.nesting]
  exact (program_steady _ (S := Anywhere)).tied h (Nat.le_refl _) trivial

theorem program_current (hc : c.Complete) {program : Program}
    (h : Parse.program.runFrom c = (.ok program, c')) : c'.current.is .eof = true := by
  rw [Parse.program, entry, runFrom_bind_get] at h
  obtain ⟨_, c₁, hskip, hloop⟩ := bind_eq_ok h
  obtain ⟨hleft, hfault, -⟩ := (hskip ▸ skipSeparators_ends c hc).of_ok
  rw [runFrom_bind_get] at hloop
  have hends : Ends 1 (Grammar.statement (Grammar.rules c.levels)) := fun c hc =>
    (Grammar.statement_steady (Grammar.rules_steady _) (S := Anywhere) (m := 0)).comes c hc trivial
  exact Grammar.statementsF_stops hends _ [] (hc.forward hleft hfault)
    (Nat.le_of_eq (length_left c₁)) hloop

end Parse

end TriggerEngine
