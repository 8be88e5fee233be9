/-
**What is read is derived, and what is refused can be completed.**

A reading either succeeds, and then it has passed some tokens and returned something, or it refuses
a token.  Where it refuses one, the tokens that it has passed are the start of a phrase: with
further tokens behind them they are what a reading passes.  Such an ending may open one level, so
the refusal must leave room for one; and a refusal because of too many levels is none of this kind.

Both are shown at once.  A small logic of readings says of a computation which rows of tokens it
passes with which results, and its rules follow the way in which computations are put together.  A
row that was broken off is completed by the shortest phrases for the parts that were still to come,
and these are found by the same rules, from the end of a computation to its start.

Main definitions:

* `Parse.Refuses` — a reading complains, and another level could have been opened;
* `Parse.Completes` — rows of tokens that can go on;
* `Parse.Reads` — what a computation reads, and that what it leaves unfinished can be completed.

Main results:

* `Parse.Reads.bind`, `Parse.Reads.headed` — readings in a row;
* `Parse.Reads.nested` — readings one level further in.
-/

import TriggerEngine.Proofs.Syntax.Boundary

set_option autoImplicit false

namespace TriggerEngine

/-! ### Tokens to go on with -/

/-- Items that some text is split into. -/
def Item.IsLexed (item : Item) : Prop :=
  ∃ source : String, item ∈ (tape none source).tokens.map Token.item

/-- Tokens that a row of tokens may go on with. -/
structure Token.Fills (t : Token) : Prop where
  lexed : t.item.IsLexed
  not_eof : t.is .eof = false

theorem Item.isLexed_of_head {item : Item} (source : String)
    (h : (tape none source).tokens.head?.map Token.item = some item) : item.IsLexed :=
  ⟨source, List.mem_of_mem_head? (by rw [List.head?_map, h]; rfl)⟩

theorem Token.fills_symbol {t : Token} {s : Symbol} (h : t.item = .symbol s) : t.Fills :=
  ⟨h ▸ Item.isLexed_of_head s.text (by cases s <;> cbv), by rw [Token.is, h]; rfl⟩

theorem Token.fills_keyword {t : Token} {k : Keyword} (h : t.item = .keyword k) : t.Fills :=
  ⟨h ▸ Item.isLexed_of_head k.text (by cases k <;> cbv), by rw [Token.is, h]; rfl⟩

theorem Token.fills_ident {t : Token} (h : t.item = .ident "x") : t.Fills :=
  ⟨h ▸ Item.isLexed_of_head "x" (by cbv), by rw [Token.is, h]; rfl⟩

theorem Token.fills_string {t : Token} (h : t.item = .string "x") : t.Fills :=
  ⟨h ▸ Item.isLexed_of_head "'x'" (by cbv), by rw [Token.is, h]; rfl⟩

/-- A terminal at no place in particular. -/
def Terminal.filler {α : Type} {item : α → Item} (value : α) : Terminal item :=
  ⟨value, 1, 1⟩

theorem fills_mark {s : Symbol} : (Terminal.filler () : Punct s).token.Fills :=
  Token.fills_symbol rfl

/-! ### Refusing a token -/

namespace Parse

open Cursor

variable {α β : Type} {c c' : Cursor}

/-- A reading from `c` complains at `c'`, for another reason than the number of levels, and another
level could have been opened there. -/
def Refuses (p : Parse α) (c c' : Cursor) : Prop :=
  ∃ cause place, p.runFrom c = (.error (.parse cause place), c') ∧ cause ≠ .nesting ∧
    c'.nesting < maxNesting

theorem Refuses.not_ok {p : Parse α} {a : α} {c₁ : Cursor} (h : Refuses p c c') :
    p.runFrom c ≠ (.ok a, c₁) := by
  obtain ⟨_, _, hrun, -⟩ := h
  rw [hrun]
  intro heq
  cases (Prod.mk.inj heq).1

theorem Refuses.bind {p : Parse α} {k : α → Parse β} (h : Refuses (p >>= k) c c') :
    Refuses p c c' ∨ ∃ a c₁, p.runFrom c = (.ok a, c₁) ∧ Refuses (k a) c₁ c' := by
  obtain ⟨cause, place, hrun, hcause, hroom⟩ := h
  rw [runFrom_bind] at hrun
  rcases hp : p.runFrom c with ⟨fault | a, c₁⟩
  · rw [hp] at hrun
    obtain ⟨hfault, rfl⟩ := Prod.mk.inj hrun
    obtain rfl : fault = .parse cause place := Except.error.inj hfault
    exact .inl ⟨cause, place, hp, hcause, hroom⟩
  · rw [hp] at hrun
    exact .inr ⟨a, c₁, rfl, cause, place, hrun, hcause, hroom⟩

theorem Refuses.of_ok {p : Parse α} {k : α → Parse β} {a : α} {c₁ : Cursor}
    (h : Refuses (p >>= k) c c') (hp : p.runFrom c = (.ok a, c₁)) : Refuses (k a) c₁ c' := by
  obtain ⟨cause, place, hrun, hcause, hroom⟩ := h
  exact ⟨cause, place, by rw [← hrun, bind_of_ok hp], hcause, hroom⟩

theorem refuses_complain {cause : ParseCause} (h : Refuses (complain cause : Parse α) c c') :
    c' = c := by
  obtain ⟨_, _, hrun, -⟩ := h
  exact (Prod.mk.inj hrun).2.symm

theorem refuses_expected {wanted : String} (h : Refuses (expected wanted : Parse α) c c') :
    c' = c := by
  obtain ⟨_, _, hrun, -⟩ := h
  exact (Prod.mk.inj hrun).2.symm

theorem Refuses.enter {k : Unit → Parse β} (h : Refuses (enter >>= k) c c') :
    c.nesting < maxNesting ∧ Refuses (k ()) { c with nesting := c.nesting + 1 } c' := by
  by_cases hroom : c.nesting < maxNesting
  · exact ⟨hroom, h.of_ok (enter_spec hroom)⟩
  · obtain ⟨cause, place, hrun, hcause, -⟩ := h
    have henter : Parse.enter.runFrom c = (.error (.parse .nesting c.place),
        { c with nesting := c.nesting + 1 }) := by
      show (if (maxNesting : Int) < c.nesting + 1 then complain .nesting
        else pure () : Parse Unit).runFrom { c with nesting := c.nesting + 1 } = _
      rw [if_pos (by omega)]
      rfl
    rw [runFrom_bind, henter] at hrun
    obtain ⟨hfault, -⟩ := Prod.mk.inj hrun
    cases hfault
    exact absurd rfl hcause

theorem refuses_eat {kind : Kind} (hkind : kind ≠ .eof) (he : Ended c.left)
    (h : Refuses (eat kind) c c') : c' = c := by
  cases his : c.current.is kind with
  | true =>
      obtain ⟨c₁, hrun, -⟩ := eat_spec kind hkind he his
      exact absurd hrun h.not_ok
  | false =>
      rw [Refuses, eat, runFrom_bind_current] at h
      simp only [his, Bool.not_false, if_true] at h
      rcases Refuses.bind h with h | ⟨_, _, hrun, -⟩
      · exact refuses_expected h
      · exact absurd hrun expected_ne_ok

theorem refuses_name (he : Ended c.left) (h : Refuses name c c') : c' = c := by
  rw [Refuses, name, runFrom_bind_current] at h
  split at h
  · rename_i hname
    have hne : c.current.is .eof = false := by
      cases hitem : c.current.item <;> simp_all [Item.name?, Token.is, Item.is, Item.kind]
    obtain ⟨c₁, hadv, -⟩ := advance_spec he hne
    exact absurd (runFrom_pure _ _) (Refuses.of_ok h hadv).not_ok
  · exact refuses_expected h

theorem refuses_identifier (he : Ended c.left) (h : Refuses identifier c c') : c' = c := by
  rcases h.bind with h | ⟨token, c₁, hrun, h⟩
  · exact refuses_eat (by simp) he h
  · obtain ⟨rfl, his, -⟩ := eat_eq_ok (by simp) hrun
    have hitem : ∃ word, c.current.item = .ident word := by
      cases hitem : c.current.item <;> simp_all [Token.is, Item.is, Item.kind]
    obtain ⟨word, hitem⟩ := hitem
    rw [hitem] at h
    exact absurd (runFrom_pure _ _) h.not_ok

theorem discard_bind (p : Parse α) (k : PUnit → Parse β) :
    (Functor.discard p >>= k) = p >>= fun _ => k () :=
  (bind_assoc p (fun _ => Pure.pure PUnit.unit) k).trans (bind_congr fun _ => pure_bind _ _)

/-! ### Readings -/

/-- What a computation may pass, with what it returns and what it leaves. -/
abbrev Reading (α : Type) :=
  List Token → α → List Token → Prop

/-- What is read behind some tokens. -/
abbrev Reading.after (T : Reading α) (passed : List Token) : Reading α :=
  fun tokens => T (passed ++ tokens)

/-- Rows of tokens that can go on to what is read. -/
def Completes (T : Reading α) (passed : List Token) : Prop :=
  ∃ more a rest, (∀ t ∈ more, t.Fills) ∧ T (passed ++ more) a rest

theorem Completes.of {T : Reading α} {tokens rest : List Token} {a : α} (h : T tokens a rest) :
    Completes T tokens :=
  ⟨[], a, rest, List.forall_mem_nil _, by rwa [List.append_nil]⟩

theorem Completes.imp {S : Reading α} {T : Reading β} {passed : List Token} (h : Completes S passed)
    (hST : ∀ tokens a rest, S tokens a rest → ∃ b rest, T tokens b rest) : Completes T passed := by
  obtain ⟨more, a, rest, hmore, hS⟩ := h
  obtain ⟨b, rest, hT⟩ := hST _ _ _ hS
  exact ⟨more, b, rest, hmore, hT⟩

theorem Completes.bind {S : Reading α} {T : Reading β} {passed : List Token} (h : Completes S passed)
    (hST : ∀ tokens a rest, S tokens a rest → Completes (T.after tokens) []) : Completes T passed := by
  obtain ⟨more, a, rest, hmore, hS⟩ := h
  obtain ⟨more', b, rest', hmore', hT⟩ := hST _ _ _ hS
  refine ⟨more ++ more', b, rest', List.forall_mem_append.2 ⟨hmore, hmore'⟩, ?_⟩
  rw [← List.append_assoc]
  exact hT

theorem Completes.after {T : Reading α} {tokens passed : List Token}
    (h : Completes (T.after tokens) passed) : Completes T (tokens ++ passed) := by
  obtain ⟨more, a, rest, hmore, hT⟩ := h
  exact ⟨more, a, rest, hmore, by rwa [List.append_assoc]⟩

theorem Completes.cons {T : Reading α} {t : Token} (ht : t.Fills) (h : Completes (T.after [t]) []) :
    Completes T [] := by
  obtain ⟨more, a, rest, hmore, hT⟩ := h
  exact ⟨t :: more, a, rest, List.forall_mem_cons.2 ⟨ht, hmore⟩, hT⟩

/-- Where `n` levels are open and `P` holds of the tokens that are left, at most `size` of them, a
computation passes what is described by `T`; and where it refuses a token, what it has passed can go
on to something described by `T`. -/
structure Reads (n : Nat) (looped : Bool) (P : List Token → Prop) (size : Nat) (T : Reading α)
    (p : Parse α) : Prop where
  start : n < maxNesting → Completes T []
  ok : ∀ ⦃c : Cursor⦄ ⦃a : α⦄ ⦃c' : Cursor⦄, c.Within n looped → P c.left → c.left.length ≤ size →
    p.runFrom c = (.ok a, c') → ∃ tokens, c.Passes tokens c' ∧ T tokens a c'.left
  refused : ∀ ⦃c c' : Cursor⦄, c.Within n looped → P c.left → c.left.length ≤ size →
    Refuses p c c' → n < maxNesting ∧ ∃ passed, c.left = passed ++ c'.left ∧ Completes T passed

theorem room_of_refuses {n : Nat} {looped : Bool} {p : Parse α} (hc : c.Within n looped)
    (h : Refuses p c c') (hstay : c' = c) : n < maxNesting := by
  obtain ⟨_, _, -, -, hroom⟩ := h
  rw [hstay, hc.nesting] at hroom
  omega

namespace Reads

variable {n : Nat} {looped : Bool} {P : List Token → Prop} {size : Nat} {S : Reading α}
  {T : Reading β}

theorem zero {p : Parse β} (hstart : n < maxNesting → Completes T []) :
    Reads n looped P 0 T p where
  start := hstart
  ok c _ _ _ _ hsize _ := absurd (List.length_eq_zero_iff.1 (Nat.le_zero.1 hsize)) c.left_ne_nil
  refused c _ _ _ hsize _ :=
    absurd (List.length_eq_zero_iff.1 (Nat.le_zero.1 hsize)) c.left_ne_nil

theorem mono {less : Nat} {p : Parse β} (h : Reads n looped P size T p) (hless : less ≤ size) :
    Reads n looped P less T p where
  start := h.start
  ok _ _ _ hc hP hsize := h.ok hc hP (hsize.trans hless)
  refused _ _ hc hP hsize := h.refused hc hP (hsize.trans hless)

theorem congr {p q : Parse β} (h : Reads n looped P size T q)
    (hpq : ∀ c : Cursor, c.Within n looped → p.runFrom c = q.runFrom c) :
    Reads n looped P size T p where
  start := h.start
  ok c _ _ hc hP hsize hrun := h.ok hc hP hsize (hpq c hc ▸ hrun)
  refused c _ hc hP hsize href := h.refused hc hP hsize (by rwa [Refuses, hpq c hc] at href)

theorem imp {T' : Reading β} {p : Parse β} (h : Reads n looped P size T p)
    (hT : ∀ tokens b rest, T tokens b rest → T' tokens b rest) : Reads n looped P size T' p where
  start hn := (h.start hn).imp fun tokens b rest h => ⟨b, rest, hT tokens b rest h⟩
  ok _ _ _ hc hP hsize hrun := by
    obtain ⟨tokens, hpass, h⟩ := h.ok hc hP hsize hrun
    exact ⟨tokens, hpass, hT _ _ _ h⟩
  refused _ _ hc hP hsize href := by
    obtain ⟨hn, passed, hleft, h⟩ := h.refused hc hP hsize href
    exact ⟨hn, passed, hleft, h.imp fun tokens b rest h => ⟨b, rest, hT tokens b rest h⟩⟩

theorem pure {b : β} (hstart : n < maxNesting → Completes T []) (h : ∀ rest, P rest → T [] b rest) :
    Reads n looped P size T (Pure.pure b) where
  start := hstart
  ok c _ _ _ hP _ hrun := by
    obtain ⟨rfl, rfl⟩ := pure_eq_ok hrun
    exact ⟨[], .refl c, h _ hP⟩
  refused _ _ _ _ _ href := absurd (runFrom_pure b _) href.not_ok

theorem done {b : β} (h : ∀ rest, T [] b rest) : Reads n looped P size T (Pure.pure b) :=
  .pure (fun _ => .of (h [])) fun rest _ => h rest

theorem complain {cause : ParseCause} {k : α → Parse β} (hstart : n < maxNesting → Completes T []) :
    Reads n looped P size T (Parse.complain cause >>= k) where
  start := hstart
  ok _ _ _ _ _ _ hrun := by
    obtain ⟨_, _, hrun, -⟩ := bind_eq_ok hrun
    exact absurd hrun complain_ne_ok
  refused c c' hc _ _ href := by
    rcases href.bind with h | ⟨_, _, hrun, -⟩
    · have hn := room_of_refuses hc h (refuses_complain h)
      exact ⟨hn, [], by rw [refuses_complain h]; rfl, hstart hn⟩
    · exact absurd hrun complain_ne_ok

theorem expected {wanted : String} (hstart : n < maxNesting → Completes T []) :
    Reads n looped P size T (Parse.expected wanted) where
  start := hstart
  ok _ _ _ _ _ _ hrun := absurd hrun expected_ne_ok
  refused c c' hc _ _ href := by
    have hn := room_of_refuses hc href (refuses_expected href)
    exact ⟨hn, [], by rw [refuses_expected href]; rfl, hstart hn⟩

/-! ### Readings in a row -/

theorem headed {Q : Token → Prop} {p : Parse α} {k : α → Parse β}
    (hQ : ∀ t l, P (t :: l) → Q t) (hstart : n < maxNesting → Completes T [])
    (hp : Reads n looped P size S p)
    (hk : ∀ tokens a rest t l, Q t → tokens ++ rest = t :: l → S tokens a rest →
      Reads n looped (· = rest) (size - tokens.length) (T.after tokens) (k a)) :
    Reads n looped P size T (p >>= k) where
  start := hstart
  ok c b c' hc hP hsize hrun := by
    obtain ⟨a, c₁, hrun₁, hrun₂⟩ := bind_eq_ok hrun
    obtain ⟨tokens, hpass₁, hS⟩ := hp.ok hc hP hsize hrun₁
    have hlen : c.left.length = tokens.length + c₁.left.length := by
      rw [hpass₁.left, List.length_append]
    obtain ⟨more, hpass₂, hT⟩ := (hk _ _ _ _ _ (hQ _ _ hP) hpass₁.left.symm hS).ok
      (hc.passes hpass₁) rfl (by omega) hrun₂
    exact ⟨tokens ++ more, hpass₁.trans hpass₂, hT⟩
  refused c c' hc hP hsize href := by
    rcases href.bind with href | ⟨a, c₁, hrun, href⟩
    · obtain ⟨hn, passed, hleft, hS⟩ := hp.refused hc hP hsize href
      refine ⟨hn, passed, hleft, ?_⟩
      cases passed with
      | nil => exact hstart hn
      | cons t passed =>
          obtain ⟨more, a, rest, hmore, hS⟩ := hS
          refine Completes.bind (S := fun tokens a' rest' => tokens = t :: passed ++ more ∧ a' = a ∧
            rest' = rest) ⟨more, a, rest, hmore, rfl, rfl, rfl⟩ ?_
          rintro _ _ _ ⟨rfl, rfl, rfl⟩
          rw [hleft] at hP
          exact (hk _ _ _ t _ (hQ t _ hP) rfl hS).start hn
    · obtain ⟨tokens, hpass, hS⟩ := hp.ok hc hP hsize hrun
      have hlen : c.left.length = tokens.length + c₁.left.length := by
        rw [hpass.left, List.length_append]
      obtain ⟨hn, passed, hleft, hT⟩ := (hk _ _ _ _ _ (hQ _ _ hP) hpass.left.symm hS).refused
        (hc.passes hpass) rfl (by omega) href
      exact ⟨hn, tokens ++ passed, by rw [hpass.left, hleft, List.append_assoc], hT.after⟩

theorem bind {p : Parse α} {k : α → Parse β} (hp : Reads n looped P size S p)
    (hk : ∀ tokens a rest, S tokens a rest →
      Reads n looped (· = rest) (size - tokens.length) (T.after tokens) (k a)) :
    Reads n looped P size T (p >>= k) :=
  hp.headed (Q := fun _ => True) (fun _ _ _ => trivial)
    (fun hn => (hp.start hn).bind fun tokens a rest h => (hk tokens a rest h).start hn)
    fun tokens a rest _ _ _ _ h => hk tokens a rest h

theorem finish {tokens rest : List Token} {b : β} (h : T tokens b rest) :
    Reads n looped (· = rest) size (T.after tokens) (Pure.pure b) := by
  rw [← List.append_nil tokens] at h
  exact .pure (fun _ => ⟨[], b, rest, List.forall_mem_nil _, h⟩) (by rintro _ rfl; exact h)

theorem map {p : Parse α} {g : α → β} (hp : Reads n looped P size S p)
    (h : ∀ tokens a rest, S tokens a rest → T tokens (g a) rest) :
    Reads n looped P size T (p >>= fun a => Pure.pure (g a)) :=
  hp.bind fun _ _ _ hS => .finish (h _ _ _ hS)

theorem from_head {Q : Token → Prop} {S : Reading β} {p : Parse β} (hQ : ∀ t l, P (t :: l) → Q t)
    (hstart : n < maxNesting → Completes T []) (hp : Reads n looped P size S p)
    (h : ∀ tokens b rest t l, Q t → tokens ++ rest = t :: l → S tokens b rest → T tokens b rest) :
    Reads n looped P size T p := by
  have hreads : Reads n looped P size T (p >>= Pure.pure) :=
    hp.headed hQ hstart fun _ _ _ _ _ ht hl hS => .finish (h _ _ _ _ _ ht hl hS)
  rwa [bind_pure] at hreads

/-! ### Looking -/

theorem current {k : Token → Parse β}
    (hk : ∀ t, Reads n looped (fun l => P l ∧ l.head? = some t) size T (k t)) :
    Reads n looped P size T (Parse.current >>= k) where
  start := (hk ⟨.eof, 1, 1⟩).start
  ok c _ _ hc hP := (hk c.current).ok hc ⟨hP, rfl⟩
  refused c _ hc hP := (hk c.current).refused hc ⟨hP, rfl⟩

theorem currentIs {k : Token → Parse β} {t : Token} (hP : ∀ l, P l → l.head? = some t)
    (hk : Reads n looped P size T (k t)) : Reads n looped P size T (Parse.current >>= k) where
  start := hk.start
  ok _ _ _ hc hl := by
    obtain rfl := Option.some.inj (hP _ hl)
    exact hk.ok hc hl
  refused _ _ hc hl := by
    obtain rfl := Option.some.inj (hP _ hl)
    exact hk.refused hc hl

theorem at? {kind : Kind} {k : Bool → Parse β}
    (hyes : Reads n looped (fun l => P l ∧ l.head?.any (·.is kind) = true) size T (k true))
    (hno : Reads n looped (fun l => P l ∧ l.head?.any (·.is kind) = false) size T (k false)) :
    Reads n looped P size T (Parse.at? kind >>= k) where
  start := hno.start
  ok c b c' hc hP hsize hrun := by
    change (k (c.current.is kind)).runFrom c = _ at hrun
    cases his : c.current.is kind with
    | true => exact hyes.ok hc ⟨hP, his⟩ hsize (his ▸ hrun)
    | false => exact hno.ok hc ⟨hP, his⟩ hsize (his ▸ hrun)
  refused c c' hc hP hsize href := by
    change Refuses (k (c.current.is kind)) c c' at href
    cases his : c.current.is kind with
    | true => exact hyes.refused hc ⟨hP, his⟩ hsize (his ▸ href)
    | false => exact hno.refused hc ⟨hP, his⟩ hsize (his ▸ href)

theorem ifAt {kind : Kind} {p q : Parse β}
    (hp : Reads n looped (fun l => P l ∧ l.head?.any (·.is kind) = true) size T p)
    (hq : Reads n looped (fun l => P l ∧ l.head?.any (·.is kind) = false) size T q) :
    Reads n looped P size T (Parse.at? kind >>= fun b => if b = true then p else q) :=
  .at? hp hq

theorem fuelled {f : Nat → Parse β} (h : ∀ fuel, Reads n looped P fuel T (f fuel)) :
    Reads n looped P size T (get >>= fun c : Cursor => f (c.remaining + 1)) where
  start := (h 0).start
  ok c _ _ hc hP _ := (h (c.remaining + 1)).ok hc hP c.length_left.le
  refused c _ hc hP _ := (h (c.remaining + 1)).refused hc hP c.length_left.le

/-! ### Taking a token -/

theorem token {ι : Type} {u : ι → Token} {g : ι → α} {p : Parse α} {k : α → Parse β}
    (hok : ∀ ⦃c a c'⦄, P c.left → p.runFrom c = (.ok a, c') → ∃ i, g i = a ∧ c.Passes [u i] c')
    (hrefuse : ∀ ⦃c c'⦄, Ended c.left → P c.left → Refuses p c c' → c' = c)
    (hstart : n < maxNesting → Completes T [])
    (hk : ∀ i, Reads n looped (fun l => P (u i :: l)) (size - 1) (T.after [u i]) (k (g i))) :
    Reads n looped P size T (p >>= k) where
  start := hstart
  ok c b c' hc hP hsize hrun := by
    obtain ⟨a, c₁, hrun₁, hrun₂⟩ := bind_eq_ok hrun
    obtain ⟨i, rfl, hpass⟩ := hok hP hrun₁
    have hleft : c.left = u i :: c₁.left := hpass.left
    rw [hleft] at hP
    rw [hleft, List.length_cons] at hsize
    obtain ⟨more, hpass₂, hT⟩ := (hk i).ok (hc.passes hpass) hP (by omega) hrun₂
    exact ⟨u i :: more, hpass.cons hpass₂, hT⟩
  refused c c' hc hP hsize href := by
    rcases href.bind with href | ⟨a, c₁, hrun, href⟩
    · have hstay := hrefuse hc.ended hP href
      have hn := room_of_refuses hc href hstay
      exact ⟨hn, [], by rw [hstay]; rfl, hstart hn⟩
    · obtain ⟨i, rfl, hpass⟩ := hok hP hrun
      have hleft : c.left = u i :: c₁.left := hpass.left
      rw [hleft] at hP
      rw [hleft, List.length_cons] at hsize
      obtain ⟨hn, passed, hleft₁, hT⟩ := (hk i).refused (hc.passes hpass) hP (by omega) href
      exact ⟨hn, u i :: passed, by rw [hleft, hleft₁]; rfl, hT.after⟩

theorem refuses_advance {c c' : Cursor} (he : Ended c.left) (hne : c.current.is .eof = false)
    (h : Refuses advance c c') : c' = c := by
  obtain ⟨c₁, hadv, -⟩ := advance_spec he hne
  exact absurd hadv h.not_ok

theorem take {γ : Type} {item : γ → Item} {k : Unit → Parse β} (t : Terminal item)
    (hP : ∀ l, P l → l.head? = some t.token) (hne : (item t.value).is .eof = false)
    (hstart : n < maxNesting → Completes T [])
    (hk : Reads n looped (fun l => P (t.token :: l)) (size - 1) (T.after [t.token]) (k ())) :
    Reads n looped P size T (advance >>= k) := by
  refine token (u := fun _ : Unit => t.token) (g := fun _ => ()) ?_ ?_ hstart fun _ => hk
  · intro c a c' hc hrun
    exact ⟨(), rfl, Option.some.inj (hP _ hc) ▸ advance_eq_ok hrun⟩
  · intro c c' he hc href
    exact refuses_advance he (Option.some.inj (hP _ hc) ▸ hne) href

theorem mark {s : Symbol} {k : Unit → Parse β}
    (hP : ∀ l, P l → l.head?.any (·.is (.symbol s)) = true)
    (hk : ∀ t : Punct s,
      Reads n looped (fun l => P (t.token :: l)) (size - 1) (T.after [t.token]) (k ())) :
    Reads n looped P size T (advance >>= k) := by
  refine token (u := fun t : Punct s => t.token) (g := fun _ => ()) ?_ ?_
    (fun hn => ((hk (.filler ())).start hn).cons (Token.fills_symbol rfl)) hk
  · intro c a c' hc hrun
    obtain ⟨t, ht⟩ := Punct.exists_of_is (show c.current.is (.symbol s) = true from hP _ hc)
    exact ⟨t, rfl, ht ▸ advance_eq_ok hrun⟩
  · intro c c' he hc href
    exact refuses_advance he (Token.is_of_ne (hP _ hc) (by simp)) href

theorem word {w : Keyword} {k : Unit → Parse β}
    (hP : ∀ l, P l → l.head?.any (·.is (.keyword w)) = true)
    (hk : ∀ t : Word w,
      Reads n looped (fun l => P (t.token :: l)) (size - 1) (T.after [t.token]) (k ())) :
    Reads n looped P size T (advance >>= k) := by
  refine token (u := fun t : Word w => t.token) (g := fun _ => ()) ?_ ?_
    (fun hn => ((hk (.filler ())).start hn).cons (Token.fills_keyword rfl)) hk
  · intro c a c' hc hrun
    obtain ⟨t, ht⟩ := Word.exists_of_is (show c.current.is (.keyword w) = true from hP _ hc)
    exact ⟨t, rfl, ht ▸ advance_eq_ok hrun⟩
  · intro c c' he hc href
    exact refuses_advance he (Token.is_of_ne (hP _ hc) (by simp)) href

theorem symbol {s : Symbol} {k : Token → Parse β}
    (hk : ∀ t : Punct s,
      Reads n looped (fun l => P (t.token :: l)) (size - 1) (T.after [t.token]) (k t.token)) :
    Reads n looped P size T (eatSymbol s >>= k) :=
  token (u := fun t : Punct s => t.token) (g := fun t => t.token)
    (fun _ _ _ _ hrun => eatSymbol_eq_ok hrun) (fun _ _ he _ href => refuses_eat (by simp) he href)
    (fun hn => ((hk (.filler ())).start hn).cons (Token.fills_symbol rfl)) hk

theorem keyword {w : Keyword} {k : Token → Parse β}
    (hk : ∀ t : Word w,
      Reads n looped (fun l => P (t.token :: l)) (size - 1) (T.after [t.token]) (k t.token)) :
    Reads n looped P size T (eatKeyword w >>= k) :=
  token (u := fun t : Word w => t.token) (g := fun t => t.token)
    (fun _ _ _ _ hrun => eatKeyword_eq_ok hrun) (fun _ _ he _ href => refuses_eat (by simp) he href)
    (fun hn => ((hk (.filler ())).start hn).cons (Token.fills_keyword rfl)) hk

theorem name {k : String → Parse β}
    (hk : ∀ t : Terminal Label.item,
      Reads n looped (fun l => P (t.token :: l)) (size - 1) (T.after [t.token]) (k t.value.text)) :
    Reads n looped P size T (Parse.name >>= k) :=
  token (u := fun t : Terminal Label.item => t.token) (g := fun t => t.value.text)
    (fun _ _ _ _ hrun => name_eq_ok hrun) (fun _ _ he _ href => refuses_name he href)
    (fun hn => ((hk (.filler (.ident "x"))).start hn).cons (Token.fills_ident rfl)) hk

theorem identifier {k : String → Parse β}
    (hk : ∀ t : Terminal Item.ident,
      Reads n looped (fun l => P (t.token :: l)) (size - 1) (T.after [t.token]) (k t.value)) :
    Reads n looped P size T (Parse.identifier >>= k) :=
  token (u := fun t : Terminal Item.ident => t.token) (g := fun t => t.value)
    (fun _ _ _ _ hrun => identifier_eq_ok hrun) (fun _ _ he _ href => refuses_identifier he href)
    (fun hn => ((hk (.filler "x")).start hn).cons (Token.fills_ident rfl)) hk

theorem discard {p : Parse α} {k : PUnit → Parse β}
    (h : Reads n looped P size T (p >>= fun _ => k ())) :
    Reads n looped P size T (Functor.discard p >>= k) := by
  rwa [discard_bind]

/-! ### Levels and loops -/

theorem nested {p : Parse β}
    (hp : n < maxNesting → Reads (n + 1) looped P size (fun tokens b _ => ∀ rest, T tokens b rest) p)
    (hstart : n < maxNesting → Completes (fun tokens b _ => ∀ rest, T tokens b rest) []) :
    Reads n looped P size T (enter >>= fun _ => p >>= fun b => leave >>= fun _ => Pure.pure b) where
  start hn := (hstart hn).imp fun tokens b rest hT => ⟨b, rest, hT rest⟩
  ok c b c' hc hP hsize hrun := by
    obtain ⟨_, c₀, henter, hrun⟩ := bind_eq_ok hrun
    obtain ⟨hroom, rfl⟩ := enter_eq_ok henter
    have hn : n < maxNesting := by
      rw [hc.nesting] at hroom
      omega
    obtain ⟨b', c₁, hrun₁, hrun⟩ := bind_eq_ok hrun
    obtain ⟨tokens, hpass, hT⟩ := (hp hn).ok (hc.enter hn) hP hsize hrun₁
    obtain ⟨rfl, rfl⟩ := pure_eq_ok hrun
    exact ⟨tokens, hpass.nested, hT _⟩
  refused c c' hc hP hsize href := by
    obtain ⟨hroom, href⟩ := href.enter
    have hn : n < maxNesting := by
      rw [hc.nesting] at hroom
      omega
    rcases href.bind with href | ⟨b, c₁, -, href⟩
    · obtain ⟨-, passed, hleft, hT⟩ := (hp hn).refused (hc.enter hn) hP hsize href
      exact ⟨hn, passed, hleft, hT.imp fun tokens b rest hT => ⟨b, rest, hT rest⟩⟩
    · exact absurd (runFrom_pure _ _) (href.of_ok (runFrom_leave c₁)).not_ok

theorem inLoop {p : Parse β} (h : Reads n true P size T p) :
    Reads n looped P size T (Parse.inLoop p) where
  start := h.start
  ok c b c' hc hP hsize hrun := by
    obtain ⟨c₁, hrun₁, rfl⟩ := inLoop_eq_ok hrun
    obtain ⟨tokens, hpass, hT⟩ := h.ok hc.inLoop hP hsize hrun₁
    exact ⟨tokens, hpass.looped, hT⟩
  refused c c' hc hP hsize href := by
    obtain ⟨cause, place, hrun, hcause, hroom⟩ := href
    obtain ⟨hresult, rfl⟩ := Prod.mk.inj hrun
    have hin : Refuses p { c with loops := c.loops + 1 } _ :=
      ⟨cause, place, Prod.ext hresult rfl, hcause, hroom⟩
    obtain ⟨hn, passed, hleft, hT⟩ := h.refused hc.inLoop hP hsize hin
    exact ⟨hn, passed, hleft, hT⟩

theorem loops {p q : Parse β} (hp : looped = false → Reads n looped P size T p)
    (hq : looped = true → Reads n looped P size T q) :
    Reads n looped P size T (get >>= fun c : Cursor => if (c.loops == 0) = true then p else q) := by
  cases looped with
  | false =>
      refine (hp rfl).congr fun c hc => ?_
      rw [runFrom_bind_get, if_pos (by simpa using hc.loops)]
  | true =>
      refine (hq rfl).congr fun c hc => ?_
      have hpos := of_decide_eq_true hc.loops
      rw [runFrom_bind_get, if_neg (by simp only [beq_iff_eq]; omega)]

end Reads

end Parse

end TriggerEngine
