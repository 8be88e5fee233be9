/-
**What can be derived is read.**

A cursor that has the tokens of a derivation before it, and behind them something that does not
belong to the phrase, reads exactly these tokens and returns what the derivation means, as long as
the derivation keeps to the limits of the place.

The proof is written in a small logic of readings, whose only statement says which row of tokens a
computation takes, what must stand behind the row and what is returned.  Its rules follow the way in
which computations are put together, so the reading of a production is a row of such steps: which
token stands first decides the production, and what stands behind a part decides where its loop
stops.

Main definitions:

* `Parse.Takes` — a computation takes a row of tokens;
* `Grammar.Complete` — a rule reads every derivation of a phrase;
* `Rules.Complete` — all entries into the grammar do.

Main results:

* `Grammar.rules_complete` — **the grammar is complete** at every level.
-/

import TriggerEngine.Proofs.Syntax.Boundary

set_option autoImplicit false

namespace TriggerEngine

/-! ### Taking rows of tokens -/

namespace Parse

open Cursor

variable {α β : Type} {n m l : Nat} {looped : Bool} {tokens more rest : List Token}

/-- Where `n` levels are open and `tokens` stand before `rest`, a computation takes these tokens,
leaves `m` levels open and returns `a`. -/
def Takes (n m : Nat) (looped : Bool) (tokens rest : List Token) (p : Parse α) (a : α) : Prop :=
  ∀ ⦃c : Cursor⦄, c.Within n looped → c.left = tokens ++ rest →
    ∃ c', p.runFrom c = (.ok a, c') ∧ c'.Within m looped ∧ c'.left = rest ∧ c'.loops = c.loops

theorem Takes.passes {p : Parse α} {a : α} (h : Takes n n looped tokens rest p a) {c : Cursor}
    (hc : c.Within n looped) (hleft : c.left = tokens ++ rest) :
    ∃ c', p.runFrom c = (.ok a, c') ∧ c.Passes tokens c' ∧ c'.left = rest := by
  obtain ⟨c', hrun, hc', hrest, hloops⟩ := h hc hleft
  exact ⟨c', hrun, ⟨by rw [hleft, hrest], hc'.nesting.trans hc.nesting.symm, hloops⟩, hrest⟩

theorem takes_of_passes {p : Parse α} {a : α}
    (h : ∀ ⦃c : Cursor⦄, c.Within n looped → c.left = tokens ++ rest →
      ∃ c', p.runFrom c = (.ok a, c') ∧ c.Passes tokens c') :
    Takes n n looped tokens rest p a := by
  intro c hc hleft
  obtain ⟨c', hrun, hpass⟩ := h hc hleft
  exact ⟨c', hrun, hc.passes hpass, hpass.left_eq hleft, hpass.loops⟩

namespace Takes

theorem of_length {p : Parse α} {a : α} (h : (tokens ++ rest).length ≤ 0) :
    Takes n m looped tokens rest p a :=
  fun c _ hleft => absurd (hleft.trans (List.length_eq_zero_iff.1 (Nat.le_zero.1 h))) c.left_ne_nil

theorem pure (a : α) : Takes n n looped [] rest (Pure.pure a) a :=
  takes_of_passes fun c _ _ => ⟨c, rfl, .refl c⟩

theorem bind {p : Parse α} {k : α → Parse β} {a : α} {b : β}
    (hp : Takes n m looped tokens (more ++ rest) p a) (hk : Takes m l looped more rest (k a) b) :
    Takes n l looped (tokens ++ more) rest (p >>= k) b := by
  intro c hc hleft
  obtain ⟨c₁, hrun₁, hc₁, hleft₁, hloops₁⟩ := hp hc (by rw [hleft, List.append_assoc])
  obtain ⟨c₂, hrun₂, hc₂, hleft₂, hloops₂⟩ := hk hc₁ hleft₁
  exact ⟨c₂, (bind_of_ok hrun₁).trans hrun₂, hc₂, hleft₂, hloops₂.trans hloops₁⟩

theorem cons {p : Parse α} {k : α → Parse β} {a : α} {b : β} {t : Token}
    (hp : Takes n m looped [t] (more ++ rest) p a) (hk : Takes m l looped more rest (k a) b) :
    Takes n l looped (t :: more) rest (p >>= k) b :=
  hp.bind hk

theorem still {p : Parse α} {k : α → Parse β} {a : α} {b : β}
    (hp : Takes n m looped [] (tokens ++ rest) p a) (hk : Takes m l looped tokens rest (k a) b) :
    Takes n l looped tokens rest (p >>= k) b :=
  hp.bind hk

theorem before {p : Parse α} {k : α → Parse β} {a : α} {b : β}
    (hp : Takes n m looped tokens rest p a) (hk : Takes m l looped [] rest (k a) b) :
    Takes n l looped tokens rest (p >>= k) b := by
  have h : Takes n l looped (tokens ++ []) rest (p >>= k) b := hp.bind hk
  rwa [List.append_nil] at h

theorem map {p : Parse α} {g : α → β} {a : α} (hp : Takes n m looped tokens rest p a) :
    Takes n m looped tokens rest (p >>= fun x => Pure.pure (g x)) (g a) :=
  hp.before (.pure _)

theorem discard {p : Parse α} {a : α} (hp : Takes n m looped tokens rest p a) :
    Takes n m looped tokens rest (Functor.discard p) () :=
  hp.map (g := fun _ => PUnit.unit)

/-! ### Looking -/

theorem current {k : Token → Parse β} {b : β} {t : Token} (h : (tokens ++ rest).head? = some t)
    (hk : Takes n m looped tokens rest (k t) b) :
    Takes n m looped tokens rest (Parse.current >>= k) b := by
  intro c hc hleft
  obtain rfl : c.current = t := by
    rw [← hleft] at h
    exact Option.some.inj h
  exact hk hc hleft

theorem at? {kind : Kind} {k : Bool → Parse β} {b : β} {x : Bool}
    (h : (tokens ++ rest).head?.any (·.is kind) = x) (hk : Takes n m looped tokens rest (k x) b) :
    Takes n m looped tokens rest (Parse.at? kind >>= k) b := by
  intro c hc hleft
  obtain rfl : c.current.is kind = x := by
    rw [← hleft] at h
    exact h
  exact hk hc hleft

theorem yes {b : Prop} [Decidable b] {p q : Parse α} {a : α} (hb : b)
    (hp : Takes n m looped tokens rest p a) : Takes n m looped tokens rest (if b then p else q) a := by
  rwa [if_pos hb]

theorem no {b : Prop} [Decidable b] {p q : Parse α} {a : α} (hb : ¬b)
    (hq : Takes n m looped tokens rest q a) : Takes n m looped tokens rest (if b then p else q) a := by
  rwa [if_neg hb]

theorem fuelled {f : Nat → Parse α} {a : α}
    (h : ∀ fuel, (tokens ++ rest).length ≤ fuel → Takes n m looped tokens rest (f fuel) a) :
    Takes n m looped tokens rest (get >>= fun c : Cursor => f (c.remaining + 1)) a :=
  fun c hc hleft => h _ (by rw [← hleft, length_left]) hc hleft

/-! ### Moving -/

theorem advance {item : α → Item} (t : Terminal item) (h : (item t.value).is .eof = false) :
    Takes n n looped [t.token] rest Parse.advance () :=
  takes_of_passes fun c hc hleft => by
    obtain ⟨c', hrun, hpass, -⟩ := advance_terminal t hc.ended hleft h
    exact ⟨c', hrun, hpass⟩

theorem symbol {s : Symbol} (t : Punct s) : Takes n n looped [t.token] rest (eatSymbol s) t.token :=
  takes_of_passes fun c hc hleft => by
    obtain ⟨c', hrun, hpass, -⟩ := eatSymbol_spec t hc.ended hleft
    exact ⟨c', hrun, hpass⟩

theorem keyword {k : Keyword} (t : Word k) :
    Takes n n looped [t.token] rest (eatKeyword k) t.token :=
  takes_of_passes fun c hc hleft => by
    obtain ⟨c', hrun, hpass, -⟩ := eatKeyword_spec t hc.ended hleft
    exact ⟨c', hrun, hpass⟩

theorem name (t : Terminal Label.item) : Takes n n looped [t.token] rest Parse.name t.value.text :=
  takes_of_passes fun c hc hleft => by
    obtain ⟨c', hrun, hpass, -⟩ := name_spec t hc.ended hleft
    exact ⟨c', hrun, hpass⟩

theorem identifier (t : Terminal Item.ident) :
    Takes n n looped [t.token] rest Parse.identifier t.value :=
  takes_of_passes fun c hc hleft => by
    obtain ⟨c', hrun, hpass, -⟩ := identifier_spec t hc.ended hleft
    exact ⟨c', hrun, hpass⟩

theorem separators (endings : List (Terminal Ending.item))
    (hrest : rest.head?.any isSeparator = false) :
    Takes n n looped (endings.map Terminal.token) rest skipSeparators () :=
  takes_of_passes fun c hc hleft => by
    obtain ⟨c', hrun, hpass⟩ := skipSeparators_spec hc.ended
    rw [hleft, takeWhile_row (fun _ => isSeparator_of_mem) hrest] at hpass
    exact ⟨c', hrun, hpass⟩

/-! ### Levels and loops -/

theorem enter (hn : n < maxNesting) : Takes n (n + 1) looped [] rest Parse.enter () :=
  fun c hc hleft => ⟨{ c with nesting := c.nesting + 1 },
    enter_spec (by rw [hc.nesting]; omega), hc.enter hn, hleft, rfl⟩

theorem leave : Takes (n + 1) n looped [] rest Parse.leave () := by
  intro c hc hleft
  refine ⟨_, runFrom_leave c, ⟨hc.ended, ?_, hc.loops, Nat.le_of_succ_le hc.room⟩, hleft, rfl⟩
  show c.nesting - 1 = n
  rw [hc.nesting]
  omega

theorem inLoop {p : Parse α} {a : α} (hp : Takes n n true tokens rest p a) :
    Takes n n looped tokens rest (Parse.inLoop p) a :=
  takes_of_passes fun c hc hleft => by
    obtain ⟨c', hrun, hpass, -⟩ := hp.passes hc.inLoop hleft
    exact ⟨_, inLoop_spec hrun, hpass.looped⟩

end Takes

end Parse

namespace Grammar

open Cursor Parse

/-- A rule that reads every derivation of a phrase that fits its place. -/
def Complete (p : Phrase) (opened : Nat) (looped : Bool) (f : Parse p.Meaning) : Prop :=
  ∀ ⦃c : Cursor⦄ (d : Derivation p) ⦃rest : List Token⦄, c.Within opened looped →
    d.Fits opened looped → c.left = d.yield ++ rest → d.StopsBefore rest →
      ∃ c', f.runFrom c = (.ok d.meaning, c') ∧ c.Passes d.yield c' ∧ c'.left = rest

end Grammar

/-- Inner rules all of whose entries are complete, wherever they are used from a place where some
levels are open. -/
structure Rules.Complete (inner : Rules) (opened : Nat) : Prop where
  expr : ∀ looped, Grammar.Complete .expression opened looped inner.expr
  unary : ∀ looped, Grammar.Complete (.expr .unary) opened looped inner.unary
  negation : ∀ looped, Grammar.Complete (.expr .negation) opened looped inner.negation
  statement : ∀ looped, Grammar.Complete .statement opened looped inner.statement

/-! ### Limits of the parts -/

/-- Whether no statement stands in a phrase. -/
def Phrase.isPlain : Phrase → Bool
  | .expr _ => true
  | .tail _ => true
  | .trailers => true
  | .elements _ => true
  | .arguments => true
  | .bare => true
  | _ => false

theorem Derivation.loopSafe_of_isPlain {p : Phrase} (d : Derivation p) {looped : Bool}
    (hp : p.isPlain = true) : d.LoopSafe looped := by
  cases d <;> trivial

theorem Derivation.Fits.of_plain {p : Phrase} {d : Derivation p} {n : Nat} {looped : Bool}
    (hp : p.isPlain = true) (hproper : d.Proper) (hroom : n + d.levels ≤ maxNesting) :
    d.Fits n looped :=
  ⟨hproper, d.loopSafe_of_isPlain hp, hroom⟩

namespace Grammar

open Cursor Parse

variable {n : Nat} {looped : Bool} {inner : Rules} {rest : List Token}

theorem room_left {a b : Nat} (h : n + max a b ≤ maxNesting) : n + a ≤ maxNesting := by
  omega

theorem room_right {a b : Nat} (h : n + max a b ≤ maxNesting) : n + b ≤ maxNesting := by
  omega

theorem room_inside {a : Nat} (h : n + (a + 1) ≤ maxNesting) : n + 1 + a ≤ maxNesting := by
  omega

theorem room_open {a : Nat} (h : n + (a + 1) ≤ maxNesting) : n < maxNesting := by
  omega

theorem Complete.takes {p : Phrase} {f : Parse p.Meaning} (h : Complete p n looped f)
    {d : Derivation p} (hfits : d.Fits n looped) (hstops : d.StopsBefore rest) :
    Takes n n looped d.yield rest f d.meaning :=
  takes_of_passes fun c hc hleft => by
    obtain ⟨c', hrun, hpass, -⟩ := h d hc hfits hleft hstops
    exact ⟨c', hrun, hpass⟩

theorem complete_of_takes {p : Phrase} {f : Parse p.Meaning}
    (h : ∀ (d : Derivation p) (rest : List Token), d.Fits n looped → d.StopsBefore rest →
      Takes n n looped d.yield rest f d.meaning) : Complete p n looped f :=
  fun _ d rest hc hfits hleft hstops => (h d rest hfits hstops).passes hc hleft

theorem Complete.part {p : Phrase} {f : Parse p.Meaning} (h : Complete p n looped f)
    {d : Derivation p} (hp : p.isPlain = true ∧ p ≠ .expr .factor) (hproper : d.Proper)
    (hroom : n + d.levels ≤ maxNesting) (hstops : p.stops rest = true) :
    Takes n n looped d.yield rest f d.meaning :=
  h.takes (.of_plain hp.1 hproper hroom) (Derivation.stopsBefore_of_stops hp.2 hstops)


/-! ### Lists -/

theorem elementsF_takes {b : Bracket} {element : Parse Node}
    (helement : Complete .expression n looped element) (fuel : Nat) (acc : List Node)
    (d : Derivation (.elements b)) (hproper : d.Proper) (hroom : n + d.levels ≤ maxNesting)
    (hstops : startsWith b.closing rest = true) (hfuel : (d.yield ++ rest).length ≤ fuel) :
    Takes n n looped d.yield rest (elementsF b.closing element fuel acc)
      (acc.reverse ++ d.meaning) := by
  induction fuel generalizing acc d with
  | zero => exact .of_length hfuel
  | succ fuel ih =>
      rw [elementsF]
      cases d with
      | noElement =>
          show Takes n n looped [] rest _ (acc.reverse ++ [])
          rw [List.append_nil]
          exact .at? hstops (.yes rfl (.pure _))
      | lastElement e =>
          have hopen := e.startsWith_append rfl (s := b.closing) (by cases b <;> rfl) rest
          obtain ⟨last, tokens, rfl⟩ := exists_of_startsWith hstops
          refine .at? hopen (.no Bool.false_ne_true (.before
            (helement.part ⟨rfl, by simp⟩ hproper hroom (by cases b <;> rfl)) ?_))
          show Takes n n looped [] _ _ (acc.reverse ++ [e.meaning])
          rw [← List.reverse_cons]
          exact .at? (x := false) (by cases b <;> rfl) (.yes rfl (.pure _))
      | element e comma d =>
          have hopen := e.startsWith_append rfl (s := b.closing) (by cases b <;> rfl)
            (comma.token :: d.yield ++ rest)
          have hlen : (e.yield ++ comma.token :: d.yield ++ rest).length ≤ fuel + 1 := hfuel
          have hrow := ih (e.meaning :: acc) d hproper.2 (room_right hroom) (by grind)
          rw [List.reverse_cons, List.append_assoc] at hrow
          rw [← List.append_assoc] at hopen
          exact .at? hopen (.no Bool.false_ne_true (.bind
            (helement.part ⟨rfl, by simp⟩ hproper.1 (room_left hroom) rfl)
            (.at? (x := true) rfl (.no Bool.false_ne_true (.cons (.advance comma rfl) hrow)))))

theorem bracketed_takes {α : Type} {opening closing : Symbol} {p : Parse α} {a : α}
    {tokens : List Token} (hn : n < maxNesting) (head : Punct opening) (last : Punct closing)
    (hp : Takes (n + 1) (n + 1) looped tokens (last.token :: rest) p a) :
    Takes n n looped (head.token :: (tokens ++ [last.token])) rest (do
      enter
      discard (eatSymbol opening)
      let x ← p
      discard (eatSymbol closing)
      leave
      return x) a :=
  .still (.enter hn) (.cons (.discard (.symbol head)) (.bind hp (.cons (.discard (.symbol last))
    (.still .leave (.pure a)))))

theorem elements_takes {b : Bracket} (hin : inner.Complete (n + 1)) (head : Punct b.opening)
    (d : Derivation (.elements b)) (last : Punct b.closing) (hproper : d.Proper)
    (hroom : n + (d.levels + 1) ≤ maxNesting) :
    Takes n n looped (head.token :: (d.yield ++ [last.token])) rest
      (elements b.opening b.closing inner.expr) d.meaning :=
  bracketed_takes (p := do elementsF b.closing inner.expr ((← get).remaining + 1) [])
    (room_open hroom) head last (.fuelled fun fuel hfuel => elementsF_takes (hin.expr looped) fuel []
      d hproper (room_inside hroom) (by cases b <;> rfl) hfuel)

theorem enclosed_takes {b : Bracket} (hin : inner.Complete (n + 1)) (head : Punct b.opening)
    (e : Derivation .expression) (last : Punct b.closing) (hproper : e.Proper)
    (hroom : n + (e.levels + 1) ≤ maxNesting) :
    Takes n n looped (head.token :: (e.yield ++ [last.token])) rest
      (enclosed b.opening b.closing inner) e.meaning :=
  bracketed_takes (room_open hroom) head last ((hin.expr looped).part ⟨rfl, by simp⟩ hproper
    (room_inside hroom) (by cases b <;> rfl))

theorem arguments_complete (hin : inner.Complete (n + 1)) :
    Complete .arguments n looped (arguments inner) := by
  refine complete_of_takes fun d rest hfits _ => ?_
  cases d with
  | arguments head items last =>
      exact elements_takes (b := .paren) hin head items last hfits.proper hfits.room

/-! ### Primary expressions -/

theorem arguments_takes (hin : inner.Complete (n + 1)) {args : Derivation .arguments}
    (hproper : args.Proper) (hroom : n + args.levels ≤ maxNesting) :
    Takes n n looped args.yield rest (arguments inner) args.meaning :=
  (arguments_complete hin).part ⟨rfl, by simp⟩ hproper hroom rfl

theorem factor_complete (hin : inner.Complete (n + 1)) :
    Complete (.expr .factor) n looped (factor inner) := by
  refine complete_of_takes fun d rest hfits hstops => ?_
  cases d with
  | number mark | text mark => exact .current rfl (.cons (.advance mark rfl) (.pure _))
  | trueWord word | falseWord word | nullWord word =>
      exact .current rfl (.cons (.advance word rfl) (.pure _))
  | ident name => exact .current rfl (.cons (.advance name rfl) (.pure _))
  | group head e last =>
      exact .current rfl (enclosed_takes (b := .paren) hin head e last hfits.proper hfits.room)
  | list head items last =>
      exact .current rfl
        (.map (elements_takes (b := .square) hin head items last hfits.proper hfits.room))
  | reference role sigil name args =>
      have hargs : Takes n n looped args.yield rest (arguments inner) args.meaning :=
        arguments_takes hin hfits.proper hfits.room
      cases role with
      | executor | condition =>
          exact .current rfl (.cons (.advance sigil rfl) (.cons (.name name) (.map hargs)))
      | placeholder =>
          have hparen : startsWith .lparen (args.yield ++ rest) = true := by
            cases args
            rfl
          exact .current rfl (.cons (.advance sigil rfl) (.cons (.name name)
            (.at? hparen (.yes rfl (.map hargs)))))
  | placeholder sigil name =>
      exact .current rfl (.cons (.advance sigil rfl) (.cons (.name name)
        (.at? (hstops.2 rfl) (.no Bool.false_ne_true (.pure _)))))
  | globalName word dot name =>
      exact .current rfl (.cons (.advance word rfl) (.map (.current rfl (.cons (.advance dot rfl)
        (.current rfl (.cons (.name name) (.pure _)))))))
  | globalKey word head e last =>
      exact .current rfl (.cons (.advance word rfl) (.map (.current rfl
        (enclosed_takes (b := .square) hin head e last hfits.proper hfits.room))))

theorem trailersF_takes (hin : inner.Complete (n + 1)) (fuel : Nat) (node : Node)
    (d : Derivation .trailers) (hproper : d.Proper) (hroom : n + d.levels ≤ maxNesting)
    (hstops : Phrase.trailers.stops rest = true) (hfuel : (d.yield ++ rest).length ≤ fuel) :
    Takes n n looped d.yield rest (trailersF inner fuel node) (d.meaning node) := by
  induction fuel generalizing node d with
  | zero => exact .of_length hfuel
  | succ fuel ih =>
      rw [trailersF]
      cases d with
      | trailersEnd =>
          cases rest with
          | nil => exact .of_length (Nat.le_refl 0)
          | cons t rest =>
              have hnot : isTrailing t.item = false := by simpa [Phrase.stops] using hstops
              refine .current rfl ?_
              split <;> first
                | exact .pure _
                | (rename_i hitem
                   rw [hitem] at hnot
                   cases hnot)
      | member dot name d =>
          have hlen : (dot.token :: name.token :: d.yield ++ rest).length ≤ fuel + 1 := hfuel
          exact .current rfl (.cons (.advance dot rfl) (.cons (.name name)
            (ih (.member node name.value.text dot.line) d hproper hroom (by grind))))
      | index head e last d =>
          have hlen : (head.token :: (e.yield ++ last.token :: d.yield) ++ rest).length ≤ fuel + 1 :=
            hfuel
          have hrow := Takes.bind (k := fun key => trailersF inner fuel (.index node key head.line))
            (enclosed_takes (b := .square) hin head e last hproper.1 (room_left hroom))
            (ih (.index node e.meaning head.line) d hproper.2 (room_right hroom) (by grind))
          rw [List.cons_append, List.append_assoc] at hrow
          exact .current rfl hrow
      | call args d =>
          have hlen : (args.yield ++ d.yield ++ rest).length ≤ fuel + 1 := hfuel
          cases args with
          | arguments head items last =>
              refine .current rfl (.bind (arguments_takes hin hproper.1 (room_left hroom))
                (ih (.call node items.meaning head.line) d hproper.2 (room_right hroom) ?_))
              simp only [Derivation.yield, List.length_append, List.length_cons] at hlen ⊢
              omega

theorem primary_complete (hin : inner.Complete (n + 1)) :
    Complete (.expr .primary) n looped (primary inner) := by
  rw [primary_eq]
  refine complete_of_takes fun d rest hfits hstops => ?_
  cases d with
  | primary d e =>
      have hend : Phrase.trailers.stops rest = true := hstops.1
      refine .bind ((factor_complete hin).takes (.of_plain rfl hfits.proper.1 (room_left hfits.room))
        ⟨?_, Derivation.bare_stops hfits.proper hend⟩) (.fuelled fun fuel =>
          trailersF_takes hin fuel _ e hfits.proper.2.1 (room_right hfits.room) hend)
      cases e.yield ++ rest <;> rfl

/-! ### Operators -/

theorem chainF_takes {t : Tier} {operand : Parse Node}
    (hoperand : Complete (.expr t.operand) n looped operand) (fuel : Nat) (node : Node)
    (d : Derivation (.tail t)) (hproper : d.Proper) (hroom : n + d.levels ≤ maxNesting)
    (hstops : (Phrase.tail t).stops rest = true) (hfuel : (d.yield ++ rest).length ≤ fuel) :
    Takes n n looped d.yield rest (chainF t.read operand fuel node) (d.meaning node) := by
  induction fuel generalizing node d with
  | zero => exact .of_length hfuel
  | succ fuel ih =>
      rw [chainF]
      cases d with
      | tailEnd =>
          cases rest with
          | nil => exact .of_length (Nat.le_refl 0)
          | cons u rest =>
              have hread : t.read u.item = none := by
                have hnot : t.continues u.item = false := by simpa [Phrase.stops] using hstops
                cases hread : t.read u.item with
                | none => rfl
                | some op =>
                    rw [Tier.continues_of_read hread] at hnot
                    cases hnot
              refine .current rfl ?_
              rw [hread]
              exact .pure _
      | tailMore op e d =>
          have hlen : (op.token :: (e.yield ++ d.yield) ++ rest).length ≤ fuel + 1 := hfuel
          have hread : t.read op.token.item = some op.value.val := t.read_item op.value
          refine .current rfl ?_
          rw [hread]
          exact .cons (.advance op (Tier.item_not_eof _)) (.bind
            (hoperand.part ⟨rfl, t.operand_ne_factor⟩ hproper.1 (room_left hroom)
              (d.stops_operand hstops))
            (ih (.binary op.value.val node e.meaning op.line) d hproper.2 (room_right hroom)
              (by grind)))

theorem chain_complete {t : Tier} {operand : Parse Node}
    (hoperand : Complete (.expr t.operand) n looped operand) :
    Complete (.expr (.tier t)) n looped (chain t.read operand) := by
  rw [chain_eq]
  refine complete_of_takes fun d rest hfits hstops => ?_
  cases d with
  | chain e d =>
      have hend : (Phrase.tail t).stops rest = true := hstops.1
      exact .bind (hoperand.part ⟨rfl, t.operand_ne_factor⟩ hfits.proper.1 (room_left hfits.room)
        (d.stops_operand hend)) (.fuelled fun fuel =>
          chainF_takes hoperand fuel _ d hfits.proper.2 (room_right hfits.room) hend)

theorem prefixed_takes {α : Type} {item : α → Item} {r : Rank} {p : Parse Node}
    (hp : Complete (.expr r) (n + 1) looped p) {node : Node → Node} (mark : Terminal item)
    (e : Derivation (.expr r)) (hmark : (item mark.value).is .eof = false) (hproper : e.Proper)
    (hroom : n + (e.levels + 1) ≤ maxNesting) (hstops : e.StopsBefore rest) :
    Takes n n looped (mark.token :: e.yield) rest (do
      enter
      advance
      let operand ← p
      leave
      return node operand) (node e.meaning) :=
  .still (.enter (room_open hroom)) (.cons (.advance mark hmark)
    (.before (hp.takes (.of_plain rfl hproper (room_inside hroom)) hstops)
      (.still .leave (.pure _))))

theorem unary_complete (hin : inner.Complete (n + 1)) :
    Complete (.expr .unary) n looped (unary inner) := by
  refine complete_of_takes fun d rest hfits hstops => ?_
  cases d with
  | sign op e =>
      have hread : additive? op.token.item = some op.value.val := Tier.sum.read_item op.value
      refine .current rfl ?_
      rw [hread]
      exact prefixed_takes (hin.unary looped) op e (Tier.item_not_eof _) hfits.proper hfits.room
        (Derivation.stopsBefore_of_stops (by simp) hstops.1)
  | unsigned e =>
      obtain ⟨t, htoken, hstarts, -⟩ := e.exists_head rfl rest
      have hread : additive? t.item = none := by
        cases hread : additive? t.item with
        | none => rfl
        | some op =>
            obtain ⟨hmem, hitem⟩ := Tier.read_eq_some (t := .sum).1 hread
            rw [hitem] at hstarts
            cases op <;> cases hstarts
      refine .current htoken ?_
      rw [hread]
      exact (primary_complete hin).part ⟨rfl, by simp⟩ hfits.proper hfits.room hstops.1

theorem term_complete (hin : inner.Complete (n + 1)) :
    Complete (.expr (.tier .product)) n looped (term inner) :=
  chain_complete (t := .product) (unary_complete hin)

theorem sum_complete (hin : inner.Complete (n + 1)) :
    Complete (.expr (.tier .sum)) n looped (sum inner) :=
  chain_complete (t := .sum) (term_complete hin)

theorem comparison_complete (hin : inner.Complete (n + 1)) :
    Complete (.expr (.tier .comparison)) n looped (comparison inner) :=
  chain_complete (t := .comparison) (sum_complete hin)

theorem negation_complete (hin : inner.Complete (n + 1)) :
    Complete (.expr .negation) n looped (negation inner) := by
  refine complete_of_takes fun d rest hfits hstops => ?_
  cases d with
  | negation word e =>
      exact .current rfl (.yes rfl (prefixed_takes (hin.negation looped) word e rfl hfits.proper
        hfits.room (Derivation.stopsBefore_of_stops (by simp) hstops.1)))
  | positive e =>
      obtain ⟨t, htoken, hstarts, -⟩ := e.exists_head rfl rest
      refine .current htoken (.no (fun his => ?_)
        ((comparison_complete hin).part ⟨rfl, by simp⟩ hfits.proper hfits.room hstops.1))
      obtain ⟨word, rfl⟩ := Word.exists_of_is his
      cases hstarts

theorem conjunction_complete (hin : inner.Complete (n + 1)) :
    Complete (.expr (.tier .conjunction)) n looped (conjunction inner) :=
  chain_complete (t := .conjunction) (negation_complete hin)

theorem expr_complete (hin : inner.Complete (n + 1)) :
    Complete .expression n looped (expr inner) :=
  chain_complete (t := .disjunction) (conjunction_complete hin)

/-! ### Rows of statements -/

theorem statementsF_takes {stops : Token → Bool} {statement : Parse Node}
    (hstatement : Complete .statement n looped statement)
    (hstart : ∀ t : Token, Phrase.statement.starts (some t.item) = true → stops t = false)
    (hend : rest.head?.any stops = true) (hblock : rest.head?.any stopsBlock = true) (fuel : Nat)
    (acc : List Node) (d : Derivation .statements) (hfits : d.Fits n looped)
    (hfuel : (d.yield ++ rest).length ≤ fuel) :
    Takes n n looped d.yield rest (statementsF stops statement fuel acc)
      (acc.reverse ++ d.meaning) := by
  induction fuel generalizing acc d with
  | zero => exact .of_length hfuel
  | succ fuel ih =>
      rw [statementsF]
      -- one statement, its end, and the statements behind it
      have hstep : ∀ (s : Derivation .statement) (endings : List (Terminal Ending.item))
          (d : Derivation .statements), s.Fits n looped → d.Fits n looped →
          (s.yield ++ (endings.map Terminal.token ++ (d.yield ++ rest))).length ≤ fuel + 1 →
          Phrase.statement.stops (endings.map Terminal.token ++ (d.yield ++ rest)) = true →
          Takes n n looped (s.yield ++ (endings.map Terminal.token ++ d.yield)) rest
            (do
              if stops (← current) then return acc.reverse
              let node ← statement
              endStatement
              statementsF stops statement fuel (node :: acc))
            (acc.reverse ++ s.meaning :: d.meaning) := by
        intro s endings d hs hd hlen hstops
        obtain ⟨t, htoken, hstarts, -⟩ :=
          s.exists_head rfl (endings.map Terminal.token ++ d.yield ++ rest)
        obtain ⟨u, hends, hu⟩ : ∃ u : Token, (endings.map Terminal.token ++ d.yield ++ rest).head? =
            some u ∧ endsStatement u = true := by
          rw [List.append_assoc, ← Option.any_eq_true]
          exact (Bool.and_eq_true_iff.1 hstops).1
        have hpos := s.length_pos rfl
        have hrow := ih (s.meaning :: acc) d hd (by grind)
        rw [List.reverse_cons, List.append_assoc] at hrow
        rw [← List.append_assoc] at htoken
        refine .current htoken (.no (Bool.eq_false_iff.1 (hstart t hstarts)) (.bind
          (hstatement.takes hs (Derivation.stopsBefore_of_stops (by simp) ?_)) (.bind (a := ()) ?_ hrow)))
        · rwa [List.append_assoc]
        · refine .current (by rw [← List.append_assoc]; exact hends) (.no ?_
            (.separators endings (d.head_statements hblock).1))
          rw [hu]
          exact Bool.false_ne_true
      cases d with
      | noStatement =>
          obtain ⟨t, htoken, ht⟩ := (Option.any_eq_true _ _).1 hend
          show Takes n n looped [] rest _ (acc.reverse ++ [])
          rw [List.append_nil]
          exact .current htoken (.yes ht (.pure _))
      | lastStatement s =>
          have hrow := hstep s [] .noStatement ⟨hfits.proper, hfits.safe, hfits.room⟩
            ⟨trivial, trivial, Nat.le_trans (Nat.le_add_right _ _) hfits.room⟩ hfuel
            (Phrase.stops_statement_of_stopsBlock hblock)
          rwa [show s.yield ++ ([].map Terminal.token ++ Derivation.noStatement.yield) = s.yield
            from List.append_nil _] at hrow
      | statement s ending endings d =>
          have hlen : (s.yield ++ ending.token :: (endings.map Terminal.token ++ d.yield) ++
            rest).length ≤ fuel + 1 := hfuel
          exact hstep s (ending :: endings) d ⟨hfits.proper.1, hfits.safe.1, room_left hfits.room⟩
            ⟨hfits.proper.2, hfits.safe.2, room_right hfits.room⟩ (by grind)
            (d.stops_statement ending endings hblock)

theorem statements_takes {stops : Token → Bool} {statement : Parse Node}
    (hstatement : Complete .statement n looped statement)
    (hstart : ∀ t : Token, Phrase.statement.starts (some t.item) = true → stops t = false)
    (endings : List (Terminal Ending.item)) (d : Derivation .statements) (hfits : d.Fits n looped)
    (hend : rest.head?.any stops = true) (hblock : rest.head?.any stopsBlock = true) :
    Takes n n looped (endings.map Terminal.token ++ d.yield) rest (statements stops statement)
      d.meaning :=
  .bind (.separators endings (d.head_statements hblock).1) (.fuelled fun fuel =>
    statementsF_takes hstatement hstart hend hblock fuel [] d hfits)

theorem statements_complete {stops : Token → Bool} {statement : Parse Node} {c : Cursor}
    (hstatement : Complete .statement n looped statement)
    (hstart : ∀ t : Token, Phrase.statement.starts (some t.item) = true → stops t = false)
    (endings : List (Terminal Ending.item)) (d : Derivation .statements)
    (hc : c.Within n looped) (hfits : d.Fits n looped)
    (hleft : c.left = endings.map Terminal.token ++ (d.yield ++ rest))
    (hend : rest.head?.any stops = true) (hblock : rest.head?.any stopsBlock = true) :
    ∃ c', (statements stops statement).runFrom c = (.ok d.meaning, c') ∧
      c.Passes (endings.map Terminal.token ++ d.yield) c' ∧ c'.left = rest :=
  (statements_takes hstatement hstart endings d hfits hend hblock).passes hc
    (by rw [hleft, List.append_assoc])

theorem stopsBlock_of_starts {t : Token} (h : Phrase.statement.starts (some t.item) = true) :
    stopsBlock t = false := by
  refine Bool.eq_false_iff.2 fun hstop => ?_
  rcases Bool.or_eq_true_iff.1 hstop with hbrace | heof
  · rw [Phrase.is_symbol_of_starts h rfl] at hbrace
    cases hbrace
  · cases hitem : t.item with
    | eof =>
        rw [hitem] at h
        cases h
    | _ =>
        rw [Token.is, hitem] at heof
        cases heof

theorem block_complete (hin : inner.Complete (n + 1)) :
    Complete .block n looped (block inner) := by
  refine complete_of_takes fun d rest hfits _ => ?_
  cases d with
  | block opening endings d closing =>
      refine .still (.enter (room_open hfits.room)) (.cons (.symbol opening) ?_)
      rw [← List.append_assoc]
      exact .bind (statements_takes (hin.statement looped) (fun _ => stopsBlock_of_starts) endings d
        ⟨hfits.proper, hfits.safe, room_inside hfits.room⟩ rfl rfl)
        (.cons (.discard (.symbol closing)) (.still .leave (.pure _)))

theorem block_takes (hin : inner.Complete (n + 1)) {d : Derivation .block} (hproper : d.Proper)
    (hsafe : d.LoopSafe looped) (hroom : n + d.levels ≤ maxNesting) :
    Takes n n looped d.yield rest (block inner) d.meaning :=
  (block_complete hin).takes ⟨hproper, hsafe, hroom⟩ (Derivation.stopsBefore_of_stops (by simp) rfl)

/-! ### Conditionals -/

theorem skipToElse_stays (h : elseFollows rest = false) :
    Takes n n looped [] rest skipToElse () :=
  takes_of_passes fun c hc hleft => by
    obtain ⟨c', hrun, hpass, -⟩ := skipToElse_spec hc.ended
    rw [hleft, List.nil_append, h] at hpass
    exact ⟨c', hrun, hpass⟩

theorem skipToElse_takes (lines : List LineEnd) (d : Derivation .clause) :
    Takes n n looped (lines.map Terminal.token) (d.yield ++ rest) skipToElse () :=
  takes_of_passes fun c hc hleft => by
    obtain ⟨c', hrun, hpass, -⟩ := skipToElse_spec hc.ended
    obtain ⟨hline, hclause⟩ := d.elseFollows_clause rest
    rw [hleft, elseFollows_lines, hclause, if_pos rfl,
      takeWhile_row (fun _ => isLineEnd_of_mem) hline] at hpass
    exact ⟨c', hrun, hpass⟩

theorem atCase_takes {x : Bool} (h : (rest.head?.any (·.is (.keyword .elifWord)) ||
      rest.head?.any (·.is (.keyword .elseWord)) && rest[1]?.any (·.is (.keyword .ifWord))) = x) :
    Takes n n looped [] rest atCase x :=
  takes_of_passes fun c hc hleft => by
    obtain ⟨c', hrun, hpass⟩ := atCase_spec hc.ended
    rw [← show c.left = rest from hleft] at h
    exact ⟨c', by rw [hrun, ← h]; rfl, hpass⟩

theorem not_case_of_elseFollows (h : elseFollows rest = false) :
    rest.head?.any (·.is (.keyword .elifWord)) = false ∧
      rest.head?.any (·.is (.keyword .elseWord)) = false := by
  cases rest with
  | nil => exact ⟨rfl, rfl⟩
  | cons t rest =>
      cases hline : t.isLineEnd with
      | true => exact ⟨Token.is_of_ne hline (by decide), Token.is_of_ne hline (by decide)⟩
      | false =>
          rw [elseFollows_cons_of_neg _ hline] at h
          exact Bool.or_eq_false_iff.1 h

theorem caseThen_takes {α β : Type} {item : α → Item} (hin : inner.Complete (n + 1))
    {k : Node × Node × Line → Parse β} {b : β} (word : Terminal item) (line : Line)
    {test : Derivation .expression} {body : Derivation .block} {alt : Derivation .alternative}
    (hword : (item word.value).is .eof = false)
    (hproper : test.Proper ∧ body.Proper ∧ alt.Proper) (hsafe : body.LoopSafe looped)
    (hroom : n + max test.levels (max body.levels alt.levels) ≤ maxNesting)
    (hk : Takes n n looped alt.yield rest
      (skipToElse >>= fun _ => k (test.meaning, body.meaning, line)) b) :
    Takes n n looped (word.token :: (test.yield ++ (body.yield ++ alt.yield))) rest
      (caseThen inner line k) b :=
  .cons (.advance word hword) (.bind
    ((expr_complete hin).part ⟨rfl, by simp⟩ hproper.1 (room_left hroom)
      (by rw [List.append_assoc]; exact body.stops_block _))
    (.bind (block_takes hin hproper.2.1 hsafe (room_left (room_right hroom))) hk))

theorem skipToElse_then {p : Parse (Option Node)} {acc : List (Node × Node × Line)}
    (d : Derivation .alternative) (hfits : d.Fits n looped) (hrest : elseFollows rest = false)
    (hlast : Takes n n looped [] rest p (nest acc none))
    (hclause : ∀ e : Derivation .clause, e.Fits n looped → e.yield.length ≤ d.yield.length →
      Takes n n looped e.yield rest p (nest acc (some e.meaning))) :
    Takes n n looped d.yield rest (skipToElse >>= fun _ => p) (nest acc d.meaning) := by
  cases d with
  | noClause => exact .still (skipToElse_stays hrest) hlast
  | clause lines e =>
      have hle : e.yield.length ≤ (Derivation.clause lines e).yield.length := by
        show _ ≤ (lines.map Terminal.token ++ e.yield).length
        rw [List.length_append]
        omega
      exact .bind (skipToElse_takes lines e)
        (hclause e ⟨hfits.proper, hfits.safe, hfits.room⟩ hle)

theorem furtherCases_stays (fuel : Nat) (acc : List (Node × Node × Line))
    (hrest : elseFollows rest = false) :
    Takes n n looped [] rest (furtherCases inner (fuel + 1) acc) (nest acc none) := by
  obtain ⟨helif, helse⟩ := not_case_of_elseFollows hrest
  have hcase : Takes n n looped [] rest atCase false := atCase_takes (by rw [helif, helse]; rfl)
  rw [furtherCases_succ]
  exact .still hcase (.no Bool.false_ne_true
    (.map (.at? helse (.no Bool.false_ne_true (.pure _)))))

theorem furtherCases_takes (hin : inner.Complete (n + 1)) (fuel : Nat)
    (acc : List (Node × Node × Line)) (d : Derivation .clause) (hfits : d.Fits n looped)
    (hrest : elseFollows rest = false) (hfuel : (d.yield ++ rest).length ≤ fuel) :
    Takes n n looped d.yield rest (furtherCases inner fuel acc) (nest acc (some d.meaning)) := by
  induction fuel generalizing acc d with
  | zero => exact .of_length hfuel
  | succ fuel ih =>
      -- The cases behind this one, for which less fuel is enough.
      have halt : ∀ (case : Node × Node × Line) (alt : Derivation .alternative),
          alt.Fits n looped → (alt.yield ++ rest).length ≤ fuel →
          Takes n n looped alt.yield rest
            (skipToElse >>= fun _ => furtherCases inner fuel (case :: acc))
            (nest (case :: acc) alt.meaning) := by
        intro case alt hfits hlen
        cases fuel with
        | zero => exact .of_length hlen
        | succ fuel =>
            exact skipToElse_then alt hfits hrest (furtherCases_stays fuel _ hrest)
              fun e hfits hle => ih _ e hfits (by grind)
      rw [furtherCases_succ]
      cases d with
      | elif word test body alt =>
          have hlen : (word.token :: (test.yield ++ (body.yield ++ alt.yield)) ++ rest).length
            ≤ fuel + 1 := hfuel
          exact .still (atCase_takes (x := true) rfl) (.yes rfl (.current rfl
            (.no Bool.false_ne_true (caseThen_takes hin word _ rfl hfits.proper hfits.safe.1
              hfits.room (halt _ alt ⟨hfits.proper.2.2, hfits.safe.2,
                room_right (room_right hfits.room)⟩ (by grind))))))
      | elseIf word more test body alt =>
          have hlen : (word.token :: more.token :: (test.yield ++ (body.yield ++ alt.yield))
            ++ rest).length ≤ fuel + 1 := hfuel
          exact .still (atCase_takes (x := true) rfl) (.yes rfl (.current rfl
            (.yes rfl (.cons (.advance word rfl) (caseThen_takes hin more _ rfl hfits.proper
              hfits.safe.1 hfits.room (halt _ alt ⟨hfits.proper.2.2, hfits.safe.2,
                room_right (room_right hfits.room)⟩ (by grind)))))))
      | otherwise word body =>
          have hcase : Takes n n looped [] (word.token :: body.yield ++ rest) atCase false :=
            atCase_takes (by cases body; rfl)
          exact .still hcase (.no Bool.false_ne_true (.map (.at? (x := true) rfl (.yes rfl
            (.cons (.advance word rfl)
              (.map (block_takes hin hfits.proper hfits.safe hfits.room)))))))

theorem alternative_takes (hin : inner.Complete (n + 1)) {d : Derivation .alternative}
    (hfits : d.Fits n looped) (hrest : elseFollows rest = false) :
    Takes n n looped d.yield rest (alternative inner) d.meaning := by
  refine skipToElse_then d hfits hrest
    (.fuelled (f := fun fuel => furtherCases inner fuel []) fun fuel hfuel => ?_)
    fun e hfits _ => .fuelled (f := fun fuel => furtherCases inner fuel []) fun fuel hfuel =>
      furtherCases_takes hin fuel [] e hfits hrest hfuel
  cases fuel with
  | zero => exact .of_length hfuel
  | succ fuel => exact furtherCases_stays fuel [] hrest

/-! ### Calls of executors -/

theorem bareArgumentsF_stays (fuel : Nat) (acc : List Node) (h : startsWith .comma rest = false) :
    Takes n n looped [] rest (bareArgumentsF inner (fuel + 1) acc) acc.reverse :=
  .at? h (.no Bool.false_ne_true (.pure _))

theorem bareArgumentsF_takes (hin : inner.Complete (n + 1)) (fuel : Nat) (acc : List Node)
    (comma : Punct .comma) (d : Derivation .bare) (hproper : d.Proper)
    (hroom : n + d.levels ≤ maxNesting) (hstops : Phrase.bare.stops rest = true)
    (hfuel : (d.yield ++ rest).length ≤ fuel) :
    Takes n n looped (comma.token :: d.yield) rest (bareArgumentsF inner (fuel + 1) acc)
      (acc.reverse ++ d.meaning) := by
  induction fuel generalizing acc comma d with
  | zero =>
      obtain ⟨t, htoken, -⟩ := d.exists_head rfl rest
      rw [List.length_eq_zero_iff.1 (Nat.le_zero.1 hfuel)] at htoken
      cases htoken
  | succ fuel ih =>
      obtain ⟨hend, hcomma⟩ := Phrase.stops_of_bare hstops
      refine .at? (x := true) rfl (.yes rfl (.cons (.advance comma rfl) ?_))
      cases d with
      | lastBare e =>
          have hrow : Takes n n looped [] rest (bareArgumentsF inner (fuel + 1) (e.meaning :: acc)) _ :=
            bareArgumentsF_stays fuel _ hcomma
          rw [List.reverse_cons] at hrow
          exact .before ((expr_complete hin).part ⟨rfl, by simp⟩ hproper hroom hend) hrow
      | bare e comma d =>
          have hlen : (e.yield ++ comma.token :: d.yield ++ rest).length ≤ fuel + 1 := hfuel
          have hrow := ih (e.meaning :: acc) comma d hproper.2 (room_right hroom) (by grind)
          rw [List.reverse_cons, List.append_assoc] at hrow
          exact .bind ((expr_complete hin).part ⟨rfl, by simp⟩ hproper.1 (room_left hroom) rfl) hrow

theorem bareArguments_takes (hin : inner.Complete (n + 1)) {d : Derivation .bare}
    (hproper : d.Proper) (hroom : n + d.levels ≤ maxNesting)
    (hstops : Phrase.bare.stops rest = true) :
    Takes n n looped d.yield rest (bareArguments inner) d.meaning := by
  obtain ⟨hend, hcomma⟩ := Phrase.stops_of_bare hstops
  cases d with
  | lastBare e =>
      refine .before ((expr_complete hin).part ⟨rfl, by simp⟩ hproper hroom hend)
        (.fuelled (f := fun fuel => bareArgumentsF inner fuel [e.meaning]) fun fuel hfuel => ?_)
      cases fuel with
      | zero => exact .of_length hfuel
      | succ fuel => exact bareArgumentsF_stays fuel [e.meaning] hcomma
  | bare e comma d =>
      refine .bind ((expr_complete hin).part ⟨rfl, by simp⟩ hproper.1 (room_left hroom) rfl)
        (.fuelled (f := fun fuel => bareArgumentsF inner fuel [e.meaning]) fun fuel hfuel => ?_)
      cases fuel with
      | zero => exact .of_length hfuel
      | succ fuel =>
          exact bareArgumentsF_takes hin fuel [e.meaning] comma d hproper.2 (room_right hroom)
            hstops (by grind)

/-! ### Statements -/

theorem statement_takes {tokens : List Token} {t : Token} {a : Node}
    (htoken : (tokens ++ rest).head? = some t)
    (hstarts : (Rank.tier .disjunction).opens t.item = true)
    (hhash : t.is (.symbol .hash) = false)
    (h : Takes n n looped tokens rest (assignment inner) a) :
    Takes n n looped tokens rest (statement inner) a := by
  refine .current htoken ?_
  split
  all_goals first
    | exact h
    | (rename_i hitem
       rw [hitem] at hstarts
       exact absurd hstarts (by decide))
    | (rename_i hitem
       rw [Token.is, hitem] at hhash
       exact absurd hhash (by decide))

theorem loopControl_takes {k : Keyword} {node : Line → Node} (word : Word k) :
    Takes n n true [word.token] rest (loopControl k node) (node word.line) := by
  refine .current rfl fun c hc hleft => ?_
  have hloops : ¬(c.loops == 0) = true := by
    have hpos := of_decide_eq_true hc.loops
    simp only [beq_iff_eq]
    omega
  rw [runFrom_bind_get, if_neg hloops]
  exact Takes.cons (k := fun _ => pure (node word.line)) (.advance word rfl) (.pure _) hc hleft

theorem statement_complete (hin : inner.Complete (n + 1)) :
    Complete .statement n looped (statement inner) := by
  refine complete_of_takes fun d rest hfits hstops => ?_
  obtain ⟨hends, helse⟩ := Bool.and_eq_true_iff.1
    (show (rest.head?.any endsStatement && !elseFollows rest) = true from hstops.1)
  obtain ⟨u, hu, hends'⟩ := (Option.any_eq_true _ _).1 hends
  have hnot : ∀ kind : Kind, kind ∉ [.newline, .symbol .semi, .eof, .symbol .rbrace] →
      rest.head?.any (·.is kind) = false := by
    intro kind hkind
    rw [hu]
    exact is_false_of_ends hends' hkind
  have hvalue : ∀ {e : Derivation .expression}, e.Proper → n + e.levels ≤ maxNesting →
      Takes n n looped e.yield rest (expr inner) e.meaning := fun hproper hroom =>
    (expr_complete hin).part ⟨rfl, by simp⟩ hproper hroom (Phrase.stops_of_ends hends).1
  have hbare : ∀ {d : Derivation .bare}, d.Proper → n + d.levels ≤ maxNesting →
      Takes n n looped d.yield rest (bareArguments inner) d.meaning := fun hproper hroom =>
    bareArguments_takes hin hproper hroom (Phrase.stops_of_ends hends).2
  have htest : ∀ {e : Derivation .expression} (body : Derivation .block) {more : List Token},
      e.Proper → n + e.levels ≤ maxNesting →
      Takes n n looped e.yield (body.yield ++ more) (expr inner) e.meaning :=
    fun body _ hproper hroom =>
      (expr_complete hin).part ⟨rfl, by simp⟩ hproper hroom (body.stops_block _)
  -- a value or a row of arguments at the end stops where the statement does, a test at its block
  cases d with
  | declare word name =>
      exact .current rfl (.cons (.keyword word) (.cons (.identifier name)
        (.at? (hnot _ (by decide)) (.no Bool.false_ne_true (.pure _)))))
  | define word name mark value =>
      exact .current rfl (.cons (.keyword word) (.cons (.identifier name) (.at? (x := true) rfl
        (.yes rfl (.cons (.advance mark rfl) (.map (hvalue hfits.proper hfits.room)))))))
  | assign target mark value =>
      -- no word leads here: the statement is read as an expression until its mark is seen
      obtain ⟨t, hhead, hstarts, hline, hword⟩ :=
        target.exists_head rfl (mark.token :: value.yield ++ rest)
      rw [← List.append_assoc] at hhead
      refine statement_takes hhead hstarts ((hword .hash).symm.trans hfits.proper.2.2.2)
        (.current hhead ?_)
      rw [← hline]
      refine .bind ((expr_complete hin).part ⟨rfl, by simp⟩ hfits.proper.1 (room_left hfits.room) rfl)
        (.at? (x := true) rfl (.yes rfl ?_))
      rw [hfits.proper.2.2.1]
      exact .no Bool.false_ne_true (.cons (.advance mark rfl)
        (.map (hvalue hfits.proper.2.1 (room_right hfits.room))))
  | expression e =>
      obtain ⟨t, hhead, hstarts, hline, hword⟩ := e.exists_head rfl rest
      refine statement_takes hhead hstarts ((hword .hash).symm.trans hfits.proper.2)
        (.current hhead ?_)
      rw [← hline]
      exact .before (hvalue hfits.proper.1 hfits.room)
        (.at? (hnot _ (by decide)) (.no Bool.false_ne_true (.pure _)))
  | nested body =>
      cases body with
      | block =>
          exact .current rfl (block_takes hin hfits.proper hfits.safe hfits.room)
  | conditional word test body alt =>
      refine .current rfl ?_
      rw [conditional_eq_alternative]
      have hroom : n + max test.levels (max body.levels alt.levels) ≤ maxNesting := hfits.room
      exact .cons (.keyword word) (.bind ((expr_complete hin).part ⟨rfl, by simp⟩ hfits.proper.1
        (room_left hroom) (by rw [List.append_assoc]; exact body.stops_block _)) (.bind
          (block_takes hin hfits.proper.2.1 hfits.safe.1 (room_left (room_right hroom)))
          (.map (alternative_takes hin ⟨hfits.proper.2.2, hfits.safe.2,
            room_right (room_right hroom)⟩ ((Bool.not_eq_true' _).mp helse)))))
  | repetition word test body =>
      exact .current rfl (.cons (.keyword word) (.bind (htest body hfits.proper.1
        (room_left hfits.room)) (.map (.inLoop
          (block_takes hin hfits.proper.2 hfits.safe (room_right hfits.room))))))
  | iteration word name among source body =>
      have hrange : startsWith .range (body.yield ++ rest) = false := by
        cases body
        rfl
      exact .current rfl (.cons (.keyword word) (.cons (.identifier name) (.cons
        (.discard (.keyword among)) (.bind (htest body hfits.proper.1 (room_left hfits.room))
          (.at? hrange (.no Bool.false_ne_true (.map (.inLoop
            (block_takes hin hfits.proper.2 hfits.safe (room_right hfits.room))))))))))
  | range word name among source dots bound body =>
      exact .current rfl (.cons (.keyword word) (.cons (.identifier name) (.cons
        (.discard (.keyword among)) (.bind ((expr_complete hin).part ⟨rfl, by simp⟩ hfits.proper.1
          (room_left hfits.room) rfl) (.at? (x := true) rfl (.yes rfl (.cons (.advance dots rfl)
            (.bind (htest body hfits.proper.2.1 (room_left (room_right hfits.room))) (.map (.inLoop
              (block_takes hin hfits.proper.2.2 hfits.safe
                (room_right (room_right hfits.room)))))))))))))
  | leave word | next word =>
      obtain rfl : looped = true := hfits.safe
      exact .current rfl (loopControl_takes word)
  | cooldown word what upTo seconds =>
      exact .current rfl (.cons (.keyword word) (.cons (.discard (.keyword what)) (.cons
        (.discard (.keyword upTo)) (.map (hvalue hfits.proper hfits.room)))))
  | longCall word what name =>
      exact .current rfl (.cons (.keyword word) (.cons (.discard (.keyword what)) (.current rfl
        (.cons (.advance name rfl) (.at? (hnot _ (by decide))
          (.no Bool.false_ne_true (.pure _)))))))
  | longCallWith word what name having args =>
      exact .current rfl (.cons (.keyword word) (.cons (.discard (.keyword what)) (.current rfl
        (.cons (.advance name rfl) (.at? (x := true) rfl (.yes rfl (.cons (.advance having rfl)
          (.map (hbare hfits.proper hfits.room)))))))))
  | shortCall sigil name =>
      exact .current rfl (.cons (.symbol sigil) (.cons (.name name) (.at? (hnot _ (by decide))
        (.current hu (.no Bool.false_ne_true (.yes hends' (.pure _)))))))
  | shortCallBare sigil name args =>
      -- the name is followed by arguments, since neither a parenthesis nor an end comes next
      obtain ⟨t, hhead, hstarts, -, hword⟩ := args.exists_head rfl rest
      have hparen : startsWith .lparen (args.yield ++ rest) = false := by
        rw [startsWith, hhead]
        exact (hword .lparen).symm.trans hfits.proper.2
      have hgo : ¬endsStatement t = true := by
        intro hends
        rw [show Phrase.bare.starts (some t.item) = false from opens_of_ends hends] at hstarts
        cases hstarts
      exact .current rfl (.cons (.symbol sigil) (.cons (.name name) (.at? hparen (.current hhead
        (.no Bool.false_ne_true (.no hgo (.map (hbare hfits.proper.1 hfits.room))))))))
  | shortCallGroup sigil name args =>
      obtain ⟨t, hhead, hstarts, -⟩ := args.exists_head rfl rest
      have hparen : startsWith .lparen (args.yield ++ rest) = true := by
        rw [startsWith, hhead]
        exact hstarts
      exact .current rfl (.cons (.symbol sigil) (.cons (.name name) (.at? hparen
        (.current hhead (.yes rfl (.map (arguments_takes hin hfits.proper hfits.room)))))))

/-- **The grammar is complete** at every level: the rules inside a place where some levels are
open, and so many more may be opened, read every derivation that fits. -/
theorem rules_complete (levels n : Nat) (h : n + levels = maxNesting) :
    (rules levels).Complete (n + 1) := by
  induction levels generalizing n with
  | zero =>
      have hfull : ¬n + 1 ≤ maxNesting := by omega
      exact ⟨fun _ _ _ _ hc => absurd hc.room hfull, fun _ _ _ _ hc => absurd hc.room hfull,
        fun _ _ _ _ hc => absurd hc.room hfull, fun _ _ _ _ hc => absurd hc.room hfull⟩
  | succ levels ih =>
      have hin := ih (n + 1) (by omega)
      exact ⟨fun _ => expr_complete hin, fun _ => unary_complete hin,
        fun _ => negation_complete hin, fun _ => statement_complete hin⟩

end Grammar

end TriggerEngine
