/-
**What is read is derived.**

Whatever a rule of the grammar reads successfully, it has passed the tokens of a derivation and
returns what the derivation means.  The derivation keeps to the limits of the place where the
reading started: the levels it opens fit above those that are open, and a word that leaves a loop
stands in one.  And where a rule refuses a token, some derivation goes on from what it has passed.

The rules are built level by level, and so is the proof: the rules around some inner rules read
derivations if the inner ones do so one level further in.  Each loop of the grammar is followed by
induction on its fuel, which the tokens that are left never exhaust.

Main definitions:

* `Grammar.Derives` — what is read of a phrase;
* `Grammar.Sound` — a rule reads only derivations of a phrase;
* `Rules.Reads` — all entries into the grammar read derivations.

Main results:

* `Grammar.rules_reads` — **the grammar reads derivations** at every level;
* `Grammar.expr_sound` — so do expressions, in particular.
-/

import TriggerEngine.Proofs.Syntax.Viability

set_option autoImplicit false

namespace TriggerEngine

namespace Grammar

open Cursor Parse

/-- A rule that reads only derivations of a phrase, where some levels are open, inside a loop or
not.  A placeholder without arguments is read only where no parenthesis follows. -/
def Sound (p : Phrase) (opened : Nat) (looped : Bool) (f : Parse p.Meaning) : Prop :=
  ∀ ⦃c : Cursor⦄ ⦃a : p.Meaning⦄ ⦃c' : Cursor⦄, c.Within opened looped →
    f.runFrom c = (.ok a, c') →
      ∃ d : Derivation p, d.meaning = a ∧ c.Passes d.yield c' ∧ d.Fits opened looped ∧
        (d.isBare = true → startsWith .lparen c'.left = false)

/-- The tokens of a derivation, with something that is put together from its meaning.  Behind a
placeholder without arguments there is no parenthesis. -/
abbrev Derives {α : Type} (p : Phrase) (opened : Nat) (looped : Bool) (g : p.Meaning → α) : Reading α :=
  fun tokens a rest => ∃ d : Derivation p, d.yield = tokens ∧ g d.meaning = a ∧
    d.Fits opened looped ∧ (d.isBare = true → startsWith .lparen rest = false)

variable {α β : Type} {p : Phrase} {n : Nat} {looped : Bool}

theorem Derives.of {g : p.Meaning → α} {rest : List Token} (d : Derivation p)
    (hfits : d.Fits n looped) (hbare : d.isBare = false) :
    Derives p n looped g d.yield (g d.meaning) rest :=
  ⟨d, rfl, rfl, hfits, fun h => absurd h (Bool.eq_false_iff.1 hbare)⟩

theorem sound_of_reads {f : Parse p.Meaning}
    (h : ∀ size, Reads n looped (fun _ => True) size (Derives p n looped id) f) :
    Sound p n looped f := by
  intro c a c' hc hrun
  obtain ⟨_, hpass, d, rfl, rfl, hfits, hbare⟩ := (h _).ok hc trivial le_rfl hrun
  exact ⟨d, rfl, hpass, hfits, hbare⟩

end Grammar

/-- Inner rules all of whose entries read derivations, wherever they are used from a place where
some levels are open and another one is opened. -/
structure Rules.Reads (inner : Rules) (n : Nat) : Prop where
  room : n ≤ maxNesting
  expr : n < maxNesting → ∀ {looped P size},
    Parse.Reads (n + 1) looped P size (Grammar.Derives .expression (n + 1) looped id) inner.expr
  unary : n < maxNesting → ∀ {looped P size},
    Parse.Reads (n + 1) looped P size (Grammar.Derives (.expr .unary) (n + 1) looped id) inner.unary
  negation : n < maxNesting → ∀ {looped P size}, Parse.Reads (n + 1) looped P size
    (Grammar.Derives (.expr .negation) (n + 1) looped id) inner.negation
  statement : n < maxNesting → ∀ {looped P size}, Parse.Reads (n + 1) looped P size
    (Grammar.Derives .statement (n + 1) looped id) inner.statement

/-! ### The shortest phrases -/

namespace Derivation

/-- The variable `x`. -/
def anyFactor : Derivation (.expr .factor) :=
  .ident (.filler "x")

/-- The variable `x` as an operand. -/
def anyUnary : Derivation (.expr .unary) :=
  .unsigned (.primary anyFactor .trailersEnd)

def anyNegation : Derivation (.expr .negation) :=
  .positive (.chain (t := .comparison) (.chain (t := .sum) (.chain (t := .product) anyUnary .tailEnd)
    .tailEnd) .tailEnd)

/-- The variable `x` as an expression. -/
def anyExpression : Derivation .expression :=
  .chain (t := .disjunction) (.chain (t := .conjunction) anyNegation .tailEnd) .tailEnd

theorem proper_anyNegation : anyNegation.Proper :=
  ⟨⟨⟨⟨trivial, trivial, fun _ => rfl⟩, trivial⟩, trivial⟩, trivial⟩

theorem proper_anyExpression : anyExpression.Proper :=
  ⟨⟨proper_anyNegation, trivial⟩, trivial⟩

end Derivation

namespace Grammar

open Cursor Parse

variable {α β : Type} {n : Nat} {looped : Bool} {inner : Rules} {P : List Token → Prop} {size : Nat}

theorem completes_any {p : Phrase} (d : Derivation p) (hfits : d.Fits n looped)
    (hyield : d.yield = Derivation.anyFactor.yield) (hbare : d.isBare = false) :
    Completes (fun tokens a _ => ∀ rest, Derives p n looped id tokens a rest) [] :=
  ⟨d.yield, d.meaning, [], by
    rw [hyield]
    exact List.forall_mem_singleton.2 (Token.fills_ident rfl), fun _ => .of d hfits hbare⟩

theorem completes_expression (h : n ≤ maxNesting) :
    Completes (Derives .expression n looped id) [] :=
  (completes_any .anyExpression ⟨Derivation.proper_anyExpression, trivial, h⟩ rfl rfl).imp
    fun _ _ rest h => ⟨_, rest, h rest⟩

theorem completes_statement (h : n ≤ maxNesting) : Completes (Derives .statement n looped id) [] :=
  (completes_any (.expression .anyExpression)
    ⟨⟨Derivation.proper_anyExpression, rfl⟩, trivial, h⟩ rfl rfl).imp
    fun _ _ rest h => ⟨_, rest, h rest⟩

/-! ### Levels -/

theorem room_max {a b : Nat} (ha : n + a ≤ maxNesting) (hb : n + b ≤ maxNesting) :
    n + max a b ≤ maxNesting := by
  omega

theorem room_succ {a : Nat} (h : n + 1 + a ≤ maxNesting) : n + (a + 1) ≤ maxNesting := by
  omega

/-! ### Lists -/

theorem elementsF_reads {b : Bracket} {element : Parse Node} (hn : n ≤ maxNesting)
    (helement : ∀ {P size}, Reads n looped P size (Derives .expression n looped id) element)
    (fuel : Nat) (acc : List Node) :
    Reads n looped P fuel (Derives (.elements b) n looped (acc.reverse ++ ·))
      (elementsF b.closing element fuel acc) := by
  have hend : ∀ acc : List Node, ∀ rest, Derives (.elements b) n looped (acc.reverse ++ ·) []
      acc.reverse rest := fun _ _ => ⟨.noElement, rfl, List.append_nil _, ⟨trivial, trivial, hn⟩, nofun⟩
  induction fuel generalizing acc P with
  | zero => exact .zero fun _ => .of (hend acc [])
  | succ fuel ih =>
      refine .ifAt (.done (hend acc)) (.bind helement ?_)
      rintro _ _ rest ⟨e, rfl, rfl, hfits, -⟩
      refine .at? ?_ ?_
      · refine .mark (fun _ h => h.2) fun comma => ((ih (e.meaning :: acc)).mono (by omega)).imp ?_
        rintro _ _ _ ⟨d, rfl, rfl, hfits', -⟩
        refine ⟨.element e comma d, rfl, ?_, ⟨⟨hfits.proper, hfits'.proper⟩, trivial,
          room_max hfits.room hfits'.room⟩, nofun⟩
        show acc.reverse ++ e.meaning :: d.meaning = (e.meaning :: acc).reverse ++ d.meaning
        rw [List.reverse_cons, List.append_assoc]
        rfl
      · refine .done fun _ => ⟨.lastElement e, ?_, ?_, ⟨hfits.proper, trivial, hfits.room⟩, nofun⟩
        · exact (List.append_nil _).symm
        · exact List.reverse_cons.symm

theorem bracketed_reads (opening closing : Symbol) {p : Parse α} {g : Token → α → β} {S : Reading α}
    {T : Reading β} (hp : n < maxNesting → ∀ {P size}, Reads (n + 1) looped P size S p)
    (hstart : n < maxNesting → Completes S [])
    (h : ∀ (first : Punct opening) (last : Punct closing) tokens a rest, S tokens a rest →
      ∀ rest, T (first.token :: (tokens ++ [last.token])) (g first.token a) rest) :
    Reads n looped P size T (do
      enter
      let token ← eatSymbol opening
      let a ← p
      discard (eatSymbol closing)
      leave
      return g token a) := by
  have hreads : Reads n looped P size T (enter >>= fun _ => (eatSymbol opening >>= fun token =>
      p >>= fun a => discard (eatSymbol closing) >>= fun _ => pure (g token a)) >>= fun b =>
        leave >>= fun _ => pure b) := by
    refine .nested (fun hn => ?_) (fun hn => ?_)
    · exact .symbol fun first => .bind (hp hn) fun tokens a rest hS =>
        .discard (.symbol fun last => .done fun _ => h first last tokens a rest hS)
    · exact .cons fills_mark ((hstart hn).bind fun tokens a rest hS =>
        .cons fills_mark ⟨[], _, [], List.forall_mem_nil _, h (.filler ()) (.filler ()) tokens a rest hS⟩)
  simp only [bind_assoc, pure_bind] at hreads
  exact hreads

/-- Elements between two marks, with the marks. -/
def Enclosed {α : Type} (p : Phrase) (opening closing : Symbol) (opened : Nat) (looped : Bool)
    (g : p.Meaning → α) : Reading α :=
  fun tokens a _ => ∃ (first : Punct opening) (d : Derivation p) (last : Punct closing),
    tokens = first.token :: (d.yield ++ [last.token]) ∧ a = g d.meaning ∧
      d.Fits (opened + 1) looped

theorem elements_reads {b : Bracket} (hin : inner.Reads n) :
    Reads n looped P size (Enclosed (.elements b) b.opening b.closing n looped id)
      (elements b.opening b.closing inner.expr) := by
  have hreads : Reads n looped P size (Enclosed (.elements b) b.opening b.closing n looped id) _ :=
    bracketed_reads _ _ (g := fun _ nodes => nodes)
      (fun hn => .fuelled (f := fun fuel => elementsF b.closing inner.expr fuel [])
        fun fuel => elementsF_reads hn (hin.expr hn) fuel [])
      (fun hn => ⟨[], [], [], List.forall_mem_nil _, .noElement, rfl, rfl, ⟨trivial, trivial, hn⟩, nofun⟩)
      (by
        rintro first last _ _ _ ⟨d, rfl, rfl, hfits, -⟩ _
        exact ⟨first, d, last, rfl, rfl, hfits⟩)
  simp only [bind_assoc, discard_bind] at hreads
  simp only [elements, discard_bind]
  exact hreads

theorem enclosed_reads {opening closing : Symbol} (hin : inner.Reads n) :
    Reads n looped P size (Enclosed .expression opening closing n looped id)
      (enclosed opening closing inner) := by
  have hreads : Reads n looped P size (Enclosed .expression opening closing n looped id) _ :=
    bracketed_reads _ _ (g := fun _ node => node) (fun hn => hin.expr hn)
      (fun hn => completes_expression hn)
      (by
        rintro first last _ _ _ ⟨d, rfl, rfl, hfits, -⟩ _
        exact ⟨first, d, last, rfl, rfl, hfits⟩)
  simp only [enclosed, discard_bind]
  simp only [discard_bind] at hreads
  exact hreads

theorem arguments_reads (hin : inner.Reads n) :
    Reads n looped P size (Derives .arguments n looped id) (arguments inner) :=
  (elements_reads (b := .paren) hin).imp (by
    rintro _ _ _ ⟨first, d, last, rfl, rfl, hfits⟩
    exact .of (.arguments first d last) ⟨hfits.proper, trivial, room_succ hfits.room⟩ rfl)

/-! ### Primary expressions -/

theorem globalKey_reads (hin : inner.Reads n) :
    Reads n looped P size (fun tokens key rest => ∀ word : Word .globalWord,
        Derives (.expr .factor) n looped id (word.token :: tokens) (.global key word.line) rest)
      (globalKey inner) := by
  have hname : ∀ (dot : Punct .dot) (label : Terminal Label.item) (rest : List Token)
      (word : Word .globalWord), Derives (.expr .factor) n looped id
        [word.token, dot.token, label.token]
        (.global (.literal .string (.str label.value.text) label.line label.column) word.line) rest :=
    fun dot label _ word => .of (.globalName word dot label) ⟨trivial, trivial, hin.room⟩ rfl
  have hstart : Completes (fun tokens key rest => ∀ word : Word .globalWord,
      Derives (.expr .factor) n looped id (word.token :: tokens) (.global key word.line) rest) [] :=
    .cons fills_mark (.cons (Token.fills_ident (t := (.filler (.ident "x") : Terminal Label.item).token)
      rfl) ⟨[], _, [], List.forall_mem_nil _, hname (.filler ()) _ []⟩)
  refine .current fun t => ?_
  split
  · rename_i hitem
    obtain ⟨dot, rfl, -⟩ := Terminal.exists_of_item (fun _ : Unit => .symbol .dot) () hitem
    refine .take dot (fun _ h => h.2) rfl (fun _ => hstart) (.current fun t => .name fun label => ?_)
    refine .pure (fun _ => .of (hname dot label [])) fun rest hl => ?_
    obtain rfl : label.token = t := Option.some.inj hl.2
    exact hname dot label rest
  · refine (enclosed_reads hin).imp ?_
    rintro _ _ _ ⟨first, d, last, rfl, rfl, hfits⟩ word
    exact .of (.globalKey word first d last) ⟨hfits.proper, trivial, room_succ hfits.room⟩ rfl
  · exact .expected fun _ => hstart

theorem factor_reads (hin : inner.Reads n) :
    Reads n looped P size (Derives (.expr .factor) n looped id) (factor inner) := by
  have hstart : n < maxNesting → Completes (Derives (.expr .factor) n looped id) [] :=
    fun _ => (completes_any .anyFactor ⟨trivial, trivial, hin.room⟩ rfl rfl).imp
      fun _ _ rest h => ⟨_, rest, h rest⟩
  have hfits : ∀ {d : Derivation (.expr .factor)}, d.Proper → d.LoopSafe looped → d.levels = 0 →
      d.Fits n looped := fun hproper hsafe hlevels => ⟨hproper, hsafe, hlevels ▸ hin.room⟩
  -- the token decides on the production; a placeholder may be followed by arguments or not
  refine .current fun t => ?_
  split
  · rename_i value hitem
    obtain ⟨t, rfl, rfl⟩ := Terminal.exists_of_item Item.number value hitem
    exact .take t (fun _ h => h.2) rfl hstart (.done fun _ => .of (.number t) (hfits trivial trivial rfl) rfl)
  · rename_i value hitem
    obtain ⟨t, rfl, rfl⟩ := Terminal.exists_of_item Item.string value hitem
    exact .take t (fun _ h => h.2) rfl hstart (.done fun _ => .of (.text t) (hfits trivial trivial rfl) rfl)
  · rename_i hitem
    obtain ⟨t, rfl, -⟩ := Terminal.exists_of_item (fun _ : Unit => _) () hitem
    exact .take t (fun _ h => h.2) rfl hstart (.done fun _ => .of (.trueWord t) (hfits trivial trivial rfl) rfl)
  · rename_i hitem
    obtain ⟨t, rfl, -⟩ := Terminal.exists_of_item (fun _ : Unit => _) () hitem
    exact .take t (fun _ h => h.2) rfl hstart (.done fun _ => .of (.falseWord t) (hfits trivial trivial rfl) rfl)
  · rename_i hitem
    obtain ⟨t, rfl, -⟩ := Terminal.exists_of_item (fun _ : Unit => _) () hitem
    exact .take t (fun _ h => h.2) rfl hstart (.done fun _ => .of (.nullWord t) (hfits trivial trivial rfl) rfl)
  · rename_i value hitem
    obtain ⟨t, rfl, rfl⟩ := Terminal.exists_of_item Item.ident value hitem
    exact .take t (fun _ h => h.2) rfl hstart (.done fun _ => .of (.ident t) (hfits trivial trivial rfl) rfl)
  · refine (enclosed_reads hin).imp ?_
    rintro _ _ _ ⟨first, d, last, rfl, rfl, hfits⟩
    exact .of (.group first d last) ⟨hfits.proper, trivial, room_succ hfits.room⟩ rfl
  · refine .headed (Q := (· = t)) (fun _ _ h => Option.some.inj h.2) hstart
      (elements_reads (b := .square) hin) ?_
    rintro _ _ rest t' l rfl hl ⟨first, d, last, rfl, rfl, hfits⟩
    obtain rfl : first.token = t' := (List.cons.inj hl).1
    exact .finish (.of (.list first d last) ⟨hfits.proper, trivial, room_succ hfits.room⟩ rfl)
  · rename_i hitem
    obtain ⟨t, rfl, -⟩ := Terminal.exists_of_item (fun _ : Unit => .symbol Role.executor.mark) () hitem
    refine .take t (fun _ h => h.2) rfl hstart (.name fun label => .map (arguments_reads hin) ?_)
    rintro _ _ _ ⟨d, rfl, rfl, hfits, -⟩
    exact .of (.reference .executor t label d) ⟨hfits.proper, trivial, hfits.room⟩ rfl
  · rename_i hitem
    obtain ⟨t, rfl, -⟩ := Terminal.exists_of_item (fun _ : Unit => .symbol Role.condition.mark) () hitem
    refine .take t (fun _ h => h.2) rfl hstart (.name fun label => .map (arguments_reads hin) ?_)
    rintro _ _ _ ⟨d, rfl, rfl, hfits, -⟩
    exact .of (.reference .condition t label d) ⟨hfits.proper, trivial, hfits.room⟩ rfl
  · rename_i hitem
    obtain ⟨t, rfl, -⟩ := Terminal.exists_of_item (fun _ : Unit => .symbol Role.placeholder.mark) () hitem
    refine .take t (fun _ h => h.2) rfl hstart (.name fun label => .ifAt (.map (arguments_reads hin) ?_) ?_)
    · rintro _ _ _ ⟨d, rfl, rfl, hfits, -⟩
      exact .of (.reference .placeholder t label d) ⟨hfits.proper, trivial, hfits.room⟩ rfl
    · have hbare : ∀ rest, startsWith .lparen rest = false → Derives (.expr .factor) n looped id
          [t.token, label.token] (.reference .placeholder label.value.text [] t.line) rest :=
        fun rest hrest => ⟨.placeholder t label, rfl, rfl, hfits trivial trivial rfl, fun _ => hrest⟩
      exact .pure (fun _ => .of (hbare [] rfl)) fun rest h => hbare rest h.2
  · rename_i hitem
    obtain ⟨t, rfl, -⟩ := Terminal.exists_of_item (fun _ : Unit => _) () hitem
    exact .take t (fun _ h => h.2) rfl hstart (.map (globalKey_reads hin) fun _ _ _ h => h t)
  · exact .expected hstart

theorem trailersF_reads (hin : inner.Reads n) (fuel : Nat) (node : Node) :
    Reads n looped P fuel (Derives .trailers n looped (· node)) (trailersF inner fuel node) := by
  have hend : ∀ node rest, Derives .trailers n looped (· node) [] node rest :=
    fun _ _ => .of .trailersEnd ⟨trivial, trivial, hin.room⟩ rfl
  induction fuel generalizing node P with
  | zero => exact .zero fun _ => .of (hend node [])
  | succ fuel ih =>
      refine .current fun t => ?_
      split
      · rename_i hitem
        obtain ⟨dot, rfl, -⟩ := Terminal.exists_of_item (fun _ : Unit => .symbol .dot) () hitem
        refine .take dot (fun _ h => h.2) rfl (fun _ => .of (hend node [])) (.name fun label =>
          ((ih _).mono (by omega)).imp ?_)
        rintro _ _ _ ⟨d, rfl, rfl, hfits, -⟩
        exact ⟨.member dot label d, rfl, rfl, ⟨hfits.proper, trivial, hfits.room⟩, nofun⟩
      · refine .headed (Q := (· = t)) (fun _ _ h => Option.some.inj h.2) (fun _ => .of (hend node []))
          (enclosed_reads hin) ?_
        rintro _ _ rest t' l rfl hl ⟨first, e, last, rfl, rfl, hfits⟩
        obtain rfl : first.token = t' := (List.cons.inj hl).1
        refine ((ih _).mono (by simp)).imp ?_
        rintro _ _ _ ⟨d, rfl, rfl, hfits', -⟩
        refine ⟨.index first e last d, ?_, rfl, ⟨⟨hfits.proper, hfits'.proper⟩, trivial,
          room_max (room_succ hfits.room) hfits'.room⟩, nofun⟩
        show first.token :: (e.yield ++ last.token :: d.yield) = _
        simp
      · refine .headed (Q := (· = t)) (fun _ _ h => Option.some.inj h.2) (fun _ => .of (hend node []))
          (arguments_reads hin) ?_
        rintro _ _ rest t' l rfl hl ⟨e, rfl, rfl, hfits, -⟩
        cases e with
        | arguments first items last =>
            obtain rfl : first.token = t' := (List.cons.inj hl).1
            refine ((ih _).mono (by simp [Derivation.yield])).imp ?_
            rintro _ _ _ ⟨d, rfl, rfl, hfits', -⟩
            exact ⟨.call (.arguments first items last) d, rfl, rfl, ⟨⟨hfits.proper, hfits'.proper⟩,
              trivial, room_max hfits.room hfits'.room⟩, (absurd · Bool.false_ne_true)⟩
      · exact .done (hend node)

theorem primary_reads (hin : inner.Reads n) :
    Reads n looped P size (Derives (.expr .primary) n looped id) (primary inner) := by
  rw [primary_eq]
  refine .bind (factor_reads hin) ?_
  rintro _ _ rest ⟨d, rfl, rfl, hfits, hbare⟩
  have hprimary : ∀ (e : Derivation .trailers) (rest : List Token), e.Fits n looped →
      (d.isBare = true → startsWith .lparen e.yield = false) →
      Derives (.expr .primary) n looped id (d.yield ++ e.yield) (e.meaning d.meaning) rest :=
    fun e _ hfits' hparen => .of (.primary d e) ⟨⟨hfits.proper, hfits'.proper, hparen⟩, trivial,
      room_max hfits.room hfits'.room⟩ rfl
  refine .from_head (Q := fun t => d.isBare = true → t.is (.symbol .lparen) = false) ?_
    (fun _ => ⟨[], _, [], List.forall_mem_nil _,
      hprimary .trailersEnd [] ⟨trivial, trivial, hin.room⟩ fun _ => rfl⟩)
    (.fuelled (f := fun fuel => trailersF inner fuel d.meaning)
      fun fuel => trailersF_reads hin fuel d.meaning) ?_
  · rintro t l rfl
    exact hbare
  · rintro _ _ rest' t l ht hl ⟨e, rfl, rfl, hfits', -⟩
    refine hprimary e rest' hfits' fun h => ?_
    cases he : e.yield with
    | nil => rfl
    | cons u tokens =>
        rw [he] at hl
        obtain rfl : u = t := (List.cons.inj hl).1
        exact ht h

/-! ### Operators -/

theorem chainF_reads {t : Tier} {operand : Parse Node} (hn : n ≤ maxNesting)
    (hoperand : ∀ {P size}, Reads n looped P size (Derives (.expr t.operand) n looped id) operand)
    (fuel : Nat) (left : Node) :
    Reads n looped P fuel (Derives (.tail t) n looped (· left)) (chainF t.read operand fuel left) := by
  have hend : ∀ left rest, Derives (.tail t) n looped (· left) [] left rest :=
    fun _ _ => .of .tailEnd ⟨trivial, trivial, hn⟩ rfl
  induction fuel generalizing left P with
  | zero => exact .zero fun _ => .of (hend left [])
  | succ fuel ih =>
      refine .current fun token => ?_
      split
      · exact .done (hend left)
      · rename_i op hop
        obtain ⟨hmem, hitem⟩ := Tier.read_eq_some.1 hop
        obtain ⟨mark, rfl, hvalue⟩ := Terminal.exists_of_item t.item ⟨op, hmem⟩ hitem
        obtain rfl : mark.value.val = op := congrArg Subtype.val hvalue
        refine .take mark (fun _ h => h.2) (Tier.item_not_eof _) (fun _ => .of (hend left []))
          (.bind hoperand ?_)
        rintro _ _ rest ⟨e, rfl, rfl, hfits, -⟩
        refine ((ih _).mono (by omega)).imp ?_
        rintro _ _ _ ⟨d, rfl, rfl, hfits', -⟩
        exact ⟨.tailMore mark e d, rfl, rfl, ⟨⟨hfits.proper, hfits'.proper⟩, trivial,
          room_max hfits.room hfits'.room⟩, nofun⟩

theorem chain_reads {t : Tier} {operand : Parse Node} (hn : n ≤ maxNesting)
    (hoperand : ∀ {P size}, Reads n looped P size (Derives (.expr t.operand) n looped id) operand) :
    Reads n looped P size (Derives (.expr (.tier t)) n looped id) (chain t.read operand) := by
  rw [chain_eq]
  refine .bind hoperand ?_
  rintro _ _ _ ⟨e, rfl, rfl, hfits, -⟩
  refine (Reads.fuelled (f := fun fuel => chainF t.read operand fuel e.meaning)
    fun fuel => chainF_reads hn hoperand fuel e.meaning).imp ?_
  rintro _ _ _ ⟨d, rfl, rfl, hfits', -⟩
  exact .of (.chain e d) ⟨⟨hfits.proper, hfits'.proper⟩, trivial, room_max hfits.room hfits'.room⟩ rfl

theorem operator_reads {γ : Type} {item : γ → Item} {r : Rank} {q : Parse Node} {g : Node → Node}
    {T : Reading Node} (mark : Terminal item) (hP : ∀ l, P l → l.head? = some mark.token)
    (hne : (item mark.value).is .eof = false)
    (hq : n < maxNesting → ∀ {P size},
      Reads (n + 1) looped P size (Derives (.expr r) (n + 1) looped id) q)
    (hstart : Completes (fun tokens b _ => ∀ rest, T tokens b rest) [])
    (h : ∀ d : Derivation (.expr r), d.Fits (n + 1) looped → ∀ rest,
      T (mark.token :: d.yield) (g d.meaning) rest) :
    Reads n looped P size T (do
      enter
      advance
      let operand ← q
      leave
      return g operand) := by
  have hreads : Reads n looped P size T (enter >>= fun _ => (advance >>= fun _ =>
      q >>= fun operand => pure (g operand)) >>= fun b => leave >>= fun _ => pure b) := by
    refine .nested (fun hn => .take mark hP hne (fun _ => hstart) (.map (hq hn) ?_)) fun _ => hstart
    rintro _ _ _ ⟨d, rfl, rfl, hfits, -⟩
    exact h d hfits
  simp only [bind_assoc, pure_bind] at hreads
  exact hreads

theorem unary_reads (hin : inner.Reads n) :
    Reads n looped P size (Derives (.expr .unary) n looped id) (unary inner) := by
  refine .current fun t => ?_
  split
  · rename_i op hop
    obtain ⟨hmem, hitem⟩ := Tier.read_eq_some (t := .sum).1 hop
    obtain ⟨mark, rfl, hvalue⟩ := Terminal.exists_of_item Tier.sum.item ⟨op, hmem⟩ hitem
    obtain rfl : mark.value.val = op := congrArg Subtype.val hvalue
    refine operator_reads mark (fun _ h => h.2) (Tier.item_not_eof _) (fun hn => hin.unary hn)
      (completes_any .anyUnary ⟨⟨trivial, trivial, fun _ => rfl⟩, trivial, hin.room⟩ rfl rfl) ?_
    exact fun d hfits _ => .of (.sign mark d) ⟨hfits.proper, trivial, room_succ hfits.room⟩ rfl
  · refine (primary_reads hin).imp ?_
    rintro _ _ _ ⟨d, rfl, rfl, hfits, -⟩
    exact .of (.unsigned d) ⟨hfits.proper, trivial, hfits.room⟩ rfl

theorem comparison_reads (hin : inner.Reads n) :
    Reads n looped P size (Derives (.expr (.tier .comparison)) n looped id) (comparison inner) :=
  chain_reads (t := .comparison) hin.room (chain_reads (t := .sum) hin.room
    (chain_reads (t := .product) hin.room (unary_reads hin)))

theorem negation_reads (hin : inner.Reads n) :
    Reads n looped P size (Derives (.expr .negation) n looped id) (negation inner) := by
  refine .current fun t => ?_
  split
  · rename_i hword
    obtain ⟨word, rfl⟩ := Word.exists_of_is hword
    refine operator_reads word (fun _ h => h.2) rfl (fun hn => hin.negation hn)
      (completes_any .anyNegation ⟨Derivation.proper_anyNegation, trivial, hin.room⟩ rfl rfl) ?_
    exact fun d hfits _ => .of (.negation word d) ⟨hfits.proper, trivial, room_succ hfits.room⟩ rfl
  · refine (comparison_reads hin).imp ?_
    rintro _ _ _ ⟨d, rfl, rfl, hfits, -⟩
    exact .of (.positive d) ⟨hfits.proper, trivial, hfits.room⟩ rfl

theorem expr_reads (hin : inner.Reads n) :
    Reads n looped P size (Derives .expression n looped id) (expr inner) :=
  chain_reads (t := .disjunction) hin.room (chain_reads (t := .conjunction) hin.room
    (negation_reads hin))

/-! ### Rows of statements -/

theorem exists_endings (tokens : List Token) :
    ∃ endings : List (Terminal Ending.item),
      endings.map Terminal.token = tokens.takeWhile isSeparator :=
  Terminal.exists_row fun _ ht => Ending.exists_of_is (List.all_eq_true.1 List.all_takeWhile _ ht)

theorem skipSeparators_reads :
    Reads n looped P size (fun tokens _ rest => ∃ endings : List (Terminal Ending.item),
      tokens = endings.map Terminal.token ∧ rest.head?.any isSeparator = false) skipSeparators := by
  refine ⟨fun _ => ⟨[], (), [], List.forall_mem_nil _, [], rfl, rfl⟩, ?_, ?_⟩
  · intro c u c' hc _ _ hrun
    obtain ⟨c₁, hskip, hpass⟩ := skipSeparators_spec hc.ended
    obtain ⟨-, rfl⟩ := Prod.mk.inj (hskip.symm.trans hrun)
    obtain ⟨endings, hendings⟩ := exists_endings c.left
    refine ⟨_, hpass, endings, hendings.symm, ?_⟩
    have hdrop : c₁.left = c.left.dropWhile isSeparator :=
      hpass.left_eq List.takeWhile_append_dropWhile.symm
    have hnot := List.head?_dropWhile_not isSeparator c.left
    rw [hdrop]
    cases hhead : (c.left.dropWhile isSeparator).head? with
    | none => rfl
    | some t => simpa [hhead] using hnot
  · intro c c' hc _ _ href
    obtain ⟨c₁, hskip, -⟩ := skipSeparators_spec hc.ended
    exact absurd hskip href.not_ok

theorem endStatement_reads :
    Reads n looped P size (fun tokens _ rest => ∃ endings : List (Terminal Ending.item),
      tokens = endings.map Terminal.token ∧ (endings = [] → rest.head?.any stopsBlock = true))
      endStatement := by
  have hbrace : stopsBlock (Terminal.filler () : Punct .rbrace).token = true := rfl
  have hstart : Completes (fun tokens (_ : Unit) rest => ∃ endings : List (Terminal Ending.item),
      tokens = endings.map Terminal.token ∧ (endings = [] → rest.head?.any stopsBlock = true)) [] :=
    ⟨[], (), [_], List.forall_mem_nil _, [], rfl, fun _ => hbrace⟩
  refine .current fun t => ?_
  cases hends : endsStatement t with
  | false => exact .expected fun _ => hstart
  | true =>
      refine Reads.from_head (Q := (· = t)) (fun _ _ h => Option.some.inj h.2) (fun _ => hstart)
        skipSeparators_reads ?_
      rintro _ _ _ u l rfl hl ⟨endings, rfl, hsep⟩
      refine ⟨endings, rfl, ?_⟩
      rintro rfl
      obtain rfl : _ = _ :: l := hl
      rw [endsStatement, Bool.or_assoc, show isSeparator u = false from hsep, Bool.false_or,
        Bool.or_comm] at hends
      exact hends

theorem statementsF_reads {stops : Token → Bool} {statement : Parse Node} (hn : n ≤ maxNesting)
    (hstatement : ∀ {P size}, Reads n looped P size (Derives .statement n looped id) statement)
    (fuel : Nat) (acc : List Node) :
    Reads n looped P fuel (fun tokens nodes rest => ∃ d : Derivation .statements, d.yield = tokens ∧
        acc.reverse ++ d.meaning = nodes ∧ d.Fits n looped ∧
        ∀ t, rest.head? = some t → stops t = true)
      (statementsF stops statement fuel acc) := by
  have hend : ∀ acc : List Node, ∀ rest : List Token, (∀ t, rest.head? = some t → stops t = true) →
      ∃ d : Derivation .statements, d.yield = [] ∧ acc.reverse ++ d.meaning = acc.reverse ∧
        d.Fits n looped ∧ ∀ t, rest.head? = some t → stops t = true :=
    fun _ _ hstop => ⟨.noStatement, rfl, List.append_nil _, ⟨trivial, trivial, hn⟩, hstop⟩
  induction fuel generalizing acc P with
  | zero => exact .zero fun _ => .of (hend acc [] nofun)
  | succ fuel ih =>
      refine .current fun t => ?_
      cases hstops : stops t with
      | true =>
          refine .pure (fun _ => .of (hend acc [] nofun)) fun rest h => hend acc rest fun u hu => ?_
          obtain rfl := Option.some.inj (h.2.symm.trans hu)
          exact hstops
      | false =>
          refine .bind hstatement ?_
          rintro _ _ _ ⟨s, rfl, rfl, hs, -⟩
          refine .bind endStatement_reads ?_
          rintro _ _ rest ⟨endings, rfl, hrest⟩
          cases endings with
          | cons ending endings =>
              refine ((ih (s.meaning :: acc)).mono (by simp; omega)).imp ?_
              rintro _ _ _ ⟨d, rfl, rfl, hfits, hstop⟩
              refine ⟨.statement s ending endings d, rfl, ?_, ⟨⟨hs.proper, hfits.proper⟩,
                ⟨hs.safe, hfits.safe⟩, room_max hs.room hfits.room⟩, hstop⟩
              show acc.reverse ++ s.meaning :: d.meaning = (s.meaning :: acc).reverse ++ d.meaning
              rw [List.reverse_cons, List.append_assoc]
              rfl
          | nil =>
              -- Without an end of the statement, nothing but the end of the block can follow.
              have hlast : ∀ rest : List Token, (∀ t, rest.head? = some t → stops t = true) →
                  ∃ d : Derivation .statements, d.yield = s.yield ++ [] ∧
                    acc.reverse ++ d.meaning = (s.meaning :: acc).reverse ++ [] ∧ d.Fits n looped ∧
                    ∀ t, rest.head? = some t → stops t = true := fun _ hstop =>
                ⟨.lastStatement s, (List.append_nil _).symm, by
                  rw [List.append_nil, List.reverse_cons]
                  rfl, ⟨hs.proper, hs.safe, hs.room⟩, hstop⟩
              refine .from_head (Q := fun u => stopsBlock u = true) ?_
                (fun _ => ⟨[], _, [], List.forall_mem_nil _, hlast [] nofun⟩)
                ((ih (s.meaning :: acc)).mono ?_) ?_
              · rintro t l rfl
                exact hrest rfl
              · have hpos := s.length_pos rfl
                rw [List.map_nil, List.length_nil]
                omega
              · rintro _ _ rest' t l ht hl ⟨d, rfl, rfl, -, hstop⟩
                obtain rfl := d.eq_noStatement hl.symm ht
                exact hlast rest' hstop

theorem statements_reads {stops : Token → Bool} {statement : Parse Node} (hn : n ≤ maxNesting)
    (hstatement : ∀ {P size}, Reads n looped P size (Derives .statement n looped id) statement) :
    Reads n looped P size (fun tokens nodes rest => ∃ (endings : List (Terminal Ending.item))
        (d : Derivation .statements), endings.map Terminal.token ++ d.yield = tokens ∧
        d.meaning = nodes ∧ d.Fits n looped ∧ ∀ t, rest.head? = some t → stops t = true)
      (statements stops statement) := by
  refine .bind skipSeparators_reads ?_
  rintro _ _ _ ⟨endings, rfl, -⟩
  refine (Reads.fuelled (f := fun fuel => statementsF stops statement fuel [])
    fun fuel => statementsF_reads hn hstatement fuel []).imp ?_
  rintro _ _ _ ⟨d, rfl, rfl, hfits, hstop⟩
  exact ⟨endings, d, rfl, rfl, hfits, hstop⟩

theorem block_reads (hin : inner.Reads n) :
    Reads n looped P size (Derives .block n looped id) (block inner) := by
  have hbody : n < maxNesting → ∀ {P size}, Reads (n + 1) looped P size _
      (statements stopsBlock inner.statement) := fun hn _ _ =>
    statements_reads hn fun {_ _} => hin.statement hn
  have hreads : Reads n looped P size (Derives .block n looped id) _ :=
    bracketed_reads .lbrace .rbrace (g := fun token body => .block body token.line) hbody
      (fun hn => ⟨[], [], [], List.forall_mem_nil _, [], .noStatement, rfl, rfl,
        ⟨trivial, trivial, hn⟩, nofun⟩) (by
      rintro first last _ _ _ ⟨endings, d, rfl, rfl, hfits, -⟩ rest
      refine ⟨.block first endings d last, ?_, rfl,
        ⟨hfits.proper, hfits.safe, room_succ hfits.room⟩, nofun⟩
      show first.token :: (endings.map Terminal.token ++ (d.yield ++ [last.token])) = _
      rw [List.append_assoc])
  exact hreads

/-! ### Conditionals -/

/-- Whether a token starts a further case of a conditional. -/
def startsCase (t : Token) : Bool :=
  t.is (.keyword .elifWord) || t.is (.keyword .elseWord)

theorem skipToElse_reads :
    Reads n looped P size (fun tokens _ rest => ∃ lines : List LineEnd,
      tokens = lines.map Terminal.token ∧ (lines = [] ∨ rest.head?.any startsCase = true))
      skipToElse := by
  refine ⟨fun _ => ⟨[], (), [], List.forall_mem_nil _, [], rfl, .inl rfl⟩, ?_, ?_⟩
  · intro c u c' hc _ _ hrun
    obtain ⟨c₁, hskip, hpass, hcase⟩ := skipToElse_spec hc.ended
    obtain ⟨-, rfl⟩ := Prod.mk.inj (hskip.symm.trans hrun)
    cases helse : elseFollows c.left with
    | false =>
        rw [helse] at hpass
        exact ⟨_, hpass, [], rfl, .inl rfl⟩
    | true =>
        rw [helse] at hpass hcase
        obtain ⟨lines, hlines⟩ : ∃ lines : List LineEnd,
            lines.map Terminal.token = c.left.takeWhile Token.isLineEnd :=
          Terminal.exists_row fun t ht =>
            LineEnd.exists_of_is (List.all_eq_true.1 List.all_takeWhile t ht)
        exact ⟨_, hpass, lines, hlines.symm, .inr hcase⟩
  · intro c c' hc _ _ href
    obtain ⟨c₁, hskip, -⟩ := skipToElse_spec hc.ended
    exact absurd hskip href.not_ok

theorem atCase_reads :
    Reads n looped P size (fun tokens found rest => tokens = [] ∧
      found = (rest.head?.any (·.is (.keyword .elifWord)) ||
        rest.head?.any (·.is (.keyword .elseWord)) && rest[1]?.any (·.is (.keyword .ifWord))))
      atCase := by
  refine ⟨fun _ => ⟨[], _, [], List.forall_mem_nil _, rfl, rfl⟩, ?_, ?_⟩
  · intro c found c' hc _ _ hrun
    obtain ⟨c₁, hcase, hpass⟩ := atCase_spec hc.ended
    obtain ⟨hfound, rfl⟩ := Prod.mk.inj (hcase.symm.trans hrun)
    have hleft : c.left = c₁.left := hpass.left
    rw [← hleft]
    exact ⟨[], hpass, rfl, (Except.ok.inj hfound).symm⟩
  · intro c c' hc _ _ href
    obtain ⟨c₁, hcase, -⟩ := atCase_spec hc.ended
    exact absurd hcase href.not_ok

/-- What follows the cases that were read before, at the place of a further case: one more, or
nothing that starts with the words of one. -/
def Follows (acc : List (Node × Node × Line)) (opened : Nat) (looped : Bool) :
    Reading (Option Node) :=
  fun tokens a rest => tokens = [] ∧ a = nest acc none ∧ rest.head?.any startsCase = false ∨
    ∃ d : Derivation .clause, d.yield = tokens ∧ nest acc (some d.meaning) = a ∧ d.Fits opened looped

theorem alternative_reads_of (acc : List (Node × Node × Line)) {q : Parse (Option Node)}
    (hn : n ≤ maxNesting) (hq : ∀ {P}, Reads n looped P size (Follows acc n looped) q) :
    Reads n looped P size (Derives .alternative n looped (nest acc)) (skipToElse >>= fun _ => q) := by
  refine .bind skipToElse_reads ?_
  rintro _ _ rest ⟨lines, rfl, hlines⟩
  refine .from_head (Q := fun t => lines = [] ∨ startsCase t = true) ?_ (fun hn => ?_)
    (hq.mono (Nat.sub_le _ _)) ?_
  · rintro t l rfl
    exact hlines
  · let other : Derivation .clause :=
      .otherwise (.filler ()) (.block (.filler ()) [] .noStatement (.filler ()))
    refine ⟨other.yield, _, [], ?_, .clause lines other, rfl, rfl, ⟨trivial, trivial, hn⟩, nofun⟩
    exact List.forall_mem_cons.2 ⟨Token.fills_keyword rfl,
      List.forall_mem_cons.2 ⟨fills_mark, List.forall_mem_singleton.2 fills_mark⟩⟩
  · rintro _ _ rest' t l ht hl (⟨rfl, rfl, hnot⟩ | ⟨d, rfl, rfl, hfits⟩)
    · obtain rfl : rest' = t :: l := hl
      obtain rfl : lines = [] := ht.resolve_right (Bool.eq_false_iff.1 hnot)
      exact ⟨.noClause, rfl, rfl, ⟨trivial, trivial, hn⟩, nofun⟩
    · exact ⟨.clause lines d, rfl, rfl, ⟨hfits.proper, hfits.safe, hfits.room⟩, nofun⟩

theorem tested_reads {T : Reading β} {q : Node → Node → Parse β} (hin : inner.Reads n)
    (h : ∀ (test : Derivation .expression) (body : Derivation .block), test.Fits n looped →
      body.Fits n looped → ∀ {P}, Reads n looped P size (T.after (test.yield ++ body.yield))
        (q test.meaning body.meaning)) :
    Reads n looped P size T (expr inner >>= fun test => block inner >>= fun body => q test body) := by
  refine .bind (expr_reads hin) ?_
  rintro _ _ _ ⟨test, rfl, rfl, htest, -⟩
  refine .bind (block_reads hin) ?_
  rintro _ _ _ ⟨body, rfl, rfl, hbody, -⟩
  refine ((h test body htest hbody).mono (by omega)).imp fun tokens a rest hT => ?_
  rw [Reading.after, List.append_assoc] at hT
  exact hT

theorem furtherCases_reads (hin : inner.Reads n) (fuel : Nat) (acc : List (Node × Node × Line)) :
    Reads n looped P fuel (Follows acc n looped) (furtherCases inner fuel acc) := by
  have hstart : ∀ acc, Completes (Follows acc n looped) [] :=
    fun acc => ⟨[], _, [], List.forall_mem_nil _, .inl ⟨rfl, rfl, rfl⟩⟩
  induction fuel generalizing acc P with
  | zero => exact .zero fun _ => hstart acc
  | succ fuel ih =>
      -- A case with its words, its test and its block, and what follows in turn.
      have hcase : ∀ {P : List Token → Prop} (words : List Token) (line : Line)
          (f : Derivation .expression → Derivation .block → Derivation .alternative →
            Derivation .clause),
          (∀ test body alt, (f test body alt).yield =
            words ++ (test.yield ++ (body.yield ++ alt.yield))) →
          (∀ test body alt, (f test body alt).meaning =
            .conditional test.meaning body.meaning alt.meaning line) →
          (∀ test body alt, test.Fits n looped → body.Fits n looped → alt.Fits n looped →
            (f test body alt).Fits n looped) →
          Reads n looped P fuel ((Follows acc n looped).after words) (expr inner >>= fun test =>
            block inner >>= fun body => skipToElse >>= fun _ =>
              furtherCases inner fuel ((test, body, line) :: acc)) := by
        intro P words line f hyield hmeaning hfits
        refine tested_reads hin fun test body htest hbody => ?_
        refine (alternative_reads_of _ hin.room (ih _)).imp ?_
        rintro _ _ _ ⟨alt, rfl, rfl, halt, -⟩
        refine .inr ⟨f test body alt, ?_, ?_, hfits _ _ _ htest hbody halt⟩
        · rw [hyield, List.append_assoc]
        · rw [hmeaning]
          rfl
      rw [furtherCases_succ]
      refine .bind atCase_reads ?_
      rintro _ _ rest ⟨rfl, rfl⟩
      split
      · rename_i hfound
        cases rest with
        | nil => cases hfound
        | cons t rest =>
            refine .currentIs (by rintro _ rfl; rfl) ?_
            split
            · -- Two words, and the line is that of the first one.
              rename_i helse
              obtain ⟨word, rfl⟩ := Word.exists_of_is helse
              refine .take word (by rintro _ rfl; rfl) rfl (fun _ => hstart acc)
                (.word (w := .ifWord) ?_ fun more => (hcase [word.token, more.token] word.line
                  (.elseIf word more) (fun _ _ _ => rfl) (fun _ _ _ => rfl) ?_).mono
                    (Nat.sub_le fuel 1))
              · rintro l hl
                obtain rfl := (List.cons.inj hl).2
                cases l <;> exact hfound
              · exact fun _ _ _ htest hbody halt => ⟨⟨htest.proper, hbody.proper, halt.proper⟩,
                  ⟨hbody.safe, halt.safe⟩, room_max htest.room (room_max hbody.room halt.room)⟩
            · rename_i helse
              have helif : t.is (.keyword .elifWord) = true := by
                simpa [helse] using hfound
              obtain ⟨word, rfl⟩ := Word.exists_of_is helif
              refine .take word (by rintro _ rfl; rfl) rfl (fun _ => hstart acc)
                ((hcase [word.token] word.line (.elif word) (fun _ _ _ => rfl) (fun _ _ _ => rfl) ?_).mono
                  (by omega))
              exact fun _ _ _ htest hbody halt => ⟨⟨htest.proper, hbody.proper, halt.proper⟩,
                ⟨hbody.safe, halt.safe⟩, room_max htest.room (room_max hbody.room halt.room)⟩
      · rename_i hfound
        refine .map (S := fun tokens last rest => Follows acc n looped tokens (nest acc last) rest)
          (.ifAt (.word (fun _ h => h.2) fun word => .map (block_reads hin) ?_)
            (.pure (fun _ => ⟨[], none, [], List.forall_mem_nil _, .inl ⟨rfl, rfl, rfl⟩⟩) ?_)) fun _ _ _ h => h
        · rintro _ _ _ ⟨body, rfl, rfl, hfits, -⟩
          exact .inr ⟨.otherwise word body, rfl, rfl, hfits.proper, hfits.safe, hfits.room⟩
        · rintro l ⟨rfl, helse⟩
          refine .inl ⟨rfl, rfl, ?_⟩
          cases hhead : l.head? with
          | none => rfl
          | some t => simp_all [startsCase]

theorem alternative_reads (hin : inner.Reads n) :
    Reads n looped P size (Derives .alternative n looped id) (alternative inner) :=
  alternative_reads_of [] hin.room fun {_} =>
    .fuelled (f := fun fuel => furtherCases inner fuel []) fun fuel => furtherCases_reads hin fuel []

theorem conditional_reads (hin : inner.Reads n) :
    Reads n looped P size (Derives .statement n looped id) (conditional inner) := by
  rw [conditional_eq_alternative]
  refine .keyword fun word => tested_reads hin fun test body htest hbody =>
    .map (alternative_reads hin) ?_
  rintro _ _ _ ⟨alt, rfl, rfl, halt, -⟩
  refine ⟨.conditional word test body alt, ?_, rfl, ⟨⟨htest.proper, hbody.proper, halt.proper⟩,
    ⟨hbody.safe, halt.safe⟩, room_max htest.room (room_max hbody.room halt.room)⟩, nofun⟩
  show word.token :: (test.yield ++ (body.yield ++ alt.yield)) = _
  rw [← List.append_assoc]
  rfl

/-! ### Statements -/

theorem declaration_reads (hin : inner.Reads n) :
    Reads n looped P size (Derives .statement n looped id) (declaration inner) := by
  refine .keyword fun word => .identifier fun name => .ifAt (.mark (fun _ h => h.2) fun mark =>
    .map (expr_reads hin) ?_) (.done fun _ => .of (.declare word name) ⟨trivial, trivial, hin.room⟩ rfl)
  rintro _ _ _ ⟨e, rfl, rfl, hfits, -⟩
  exact .of (.define word name mark e) ⟨hfits.proper, trivial, hfits.room⟩ rfl

theorem repetition_reads (hin : inner.Reads n) :
    Reads n looped P size (Derives .statement n looped id) (repetition inner) := by
  refine .keyword fun word => .bind (expr_reads hin) ?_
  rintro _ _ _ ⟨test, rfl, rfl, htest, -⟩
  refine .map (.inLoop (block_reads hin)) ?_
  rintro _ _ _ ⟨body, rfl, rfl, hbody, -⟩
  exact .of (.repetition word test body) ⟨⟨htest.proper, hbody.proper⟩, hbody.safe,
    room_max htest.room hbody.room⟩ rfl

theorem iteration_reads (hin : inner.Reads n) :
    Reads n looped P size (Derives .statement n looped id) (iteration inner) := by
  refine .keyword fun word => .identifier fun name => .discard (.keyword fun among =>
    .bind (expr_reads hin) ?_)
  rintro _ _ _ ⟨source, rfl, rfl, hsource, -⟩
  refine .ifAt (.mark (fun _ h => h.2) fun dots => .bind (expr_reads hin) ?_)
    (.map (.inLoop (block_reads hin)) ?_)
  · rintro _ _ _ ⟨bound, rfl, rfl, hbound, -⟩
    refine .map (.inLoop (block_reads hin)) ?_
    rintro _ _ _ ⟨body, rfl, rfl, hbody, -⟩
    exact .of (.range word name among source dots bound body) ⟨⟨hsource.proper, hbound.proper,
      hbody.proper⟩, hbody.safe, room_max hsource.room (room_max hbound.room hbody.room)⟩ rfl
  · rintro _ _ _ ⟨body, rfl, rfl, hbody, -⟩
    exact .of (.iteration word name among source body) ⟨⟨hsource.proper, hbody.proper⟩, hbody.safe,
      room_max hsource.room hbody.room⟩ rfl

theorem loopControl_reads {w : Keyword} {node : Line → Node} (hn : n ≤ maxNesting)
    (hP : ∀ l, P l → l.head?.any (·.is (.keyword w)) = true)
    (h : looped = true → ∀ (word : Word w) rest,
      Derives .statement n looped id [word.token] (node word.line) rest) :
    Reads n looped P size (Derives .statement n looped id) (loopControl w node) := by
  refine .current fun t => .loops (fun _ => .complain fun _ => completes_statement hn) fun hlooped => ?_
  refine .word (fun l hl => hP l hl.1) fun word => ?_
  refine .pure (fun _ => .of (h hlooped word [])) fun rest hl => ?_
  obtain rfl : word.token = t := Option.some.inj hl.2
  exact h hlooped word rest

theorem cooldown_reads (hin : inner.Reads n) :
    Reads n looped P size (Derives .statement n looped id) (cooldown inner) := by
  refine .keyword fun word => .discard (.keyword fun what => .discard (.keyword fun upTo =>
    .map (expr_reads hin) ?_))
  rintro _ _ _ ⟨e, rfl, rfl, hfits, -⟩
  exact .of (.cooldown word what upTo e) ⟨hfits.proper, trivial, hfits.room⟩ rfl

/-! ### Calls of executors -/

theorem bareArgumentsF_reads (hin : inner.Reads n) (fuel : Nat) (acc : List Node)
    (e : Derivation .expression) (he : e.Fits n looped) :
    Reads n looped P fuel ((Derives .bare n looped (acc.reverse ++ ·)).after e.yield)
      (bareArgumentsF inner fuel (e.meaning :: acc)) := by
  have hend : ∀ acc : List Node, ∀ e : Derivation .expression, e.Fits n looped → ∀ rest,
      Derives .bare n looped (acc.reverse ++ ·) (e.yield ++ []) (e.meaning :: acc).reverse rest :=
    fun acc e he _ => ⟨.lastBare e, (List.append_nil _).symm, List.reverse_cons.symm,
      ⟨he.proper, trivial, he.room⟩, nofun⟩
  induction fuel generalizing acc P e with
  | zero => exact .zero fun _ => ⟨[], _, [], List.forall_mem_nil _, hend acc e he []⟩
  | succ fuel ih =>
      refine .ifAt (.mark (fun _ h => h.2) fun comma => .bind (expr_reads hin) ?_)
        (.done (hend acc e he))
      rintro _ _ _ ⟨e', rfl, rfl, he', -⟩
      refine ((ih (e.meaning :: acc) e' he').mono (by omega)).imp ?_
      rintro _ _ _ ⟨d, hyield, rfl, hfits, -⟩
      refine ⟨.bare e comma d, ?_, ?_, ⟨⟨he.proper, hfits.proper⟩, trivial,
        room_max he.room hfits.room⟩, nofun⟩
      · show e.yield ++ comma.token :: d.yield = _
        rw [hyield]
        rfl
      · show acc.reverse ++ e.meaning :: d.meaning = (e.meaning :: acc).reverse ++ d.meaning
        rw [List.reverse_cons, List.append_assoc]
        rfl

theorem bareArguments_reads (hin : inner.Reads n) :
    Reads n looped P size (Derives .bare n looped id) (bareArguments inner) := by
  refine .bind (expr_reads hin) ?_
  rintro _ _ _ ⟨e, rfl, rfl, hfits, -⟩
  exact .fuelled (f := fun fuel => bareArgumentsF inner fuel [e.meaning])
    fun fuel => bareArgumentsF_reads hin fuel [] e hfits

theorem longCall_reads (hin : inner.Reads n) :
    Reads n looped P size (Derives .statement n looped id) (longCall inner) := by
  refine .keyword fun word => .discard (.keyword fun what => .current fun t => ?_)
  have hcall : ∀ (name : Terminal Item.string) rest, Derives .statement n looped id
      [word.token, what.token, name.token] (executorCall name.value [] word.line) rest :=
    fun name _ => .of (.longCall word what name) ⟨trivial, trivial, hin.room⟩ rfl
  have hstart : Completes (((Derives .statement n looped id).after [word.token]).after
      [what.token]) [] :=
    .cons (Token.fills_string (t := (.filler "x" : Terminal Item.string).token) rfl)
      ⟨[], _, [], List.forall_mem_nil _, hcall _ []⟩
  split
  · rename_i value hitem
    obtain ⟨name, rfl, rfl⟩ := Terminal.exists_of_item Item.string value hitem
    refine .take name (fun _ h => h.2) rfl (fun _ => hstart) (.ifAt (.word (fun _ h => h.2)
      fun having => .map (bareArguments_reads hin) ?_) (.done (hcall name)))
    rintro _ _ _ ⟨args, rfl, rfl, hfits, -⟩
    exact .of (.longCallWith word what name having args) ⟨hfits.proper, trivial, hfits.room⟩ rfl
  · exact .expected fun _ => hstart

theorem shortCall_reads (hin : inner.Reads n) :
    Reads n looped P size (Derives .statement n looped id) (shortCall inner) := by
  refine .symbol fun sigil => .name fun name => .at? (.current fun t => .map (arguments_reads hin) ?_)
    (.current fun t => ?_)
  · rintro _ _ _ ⟨args, rfl, rfl, hfits, -⟩
    exact .of (.shortCallGroup sigil name args) ⟨hfits.proper, trivial, hfits.room⟩ rfl
  · have hcall : ∀ rest, Derives .statement n looped id [sigil.token, name.token]
        (executorCall name.value.text [] sigil.line) rest :=
      fun _ => .of (.shortCall sigil name) ⟨trivial, trivial, hin.room⟩ rfl
    cases hends : endsStatement t with
    | true => exact .done hcall
    | false =>
        refine .headed (Q := fun t => t.is (.symbol .lparen) = false) (fun _ _ h => h.1.2)
          (fun _ => ⟨[], _, [], List.forall_mem_nil _, hcall []⟩) (bareArguments_reads hin) ?_
        rintro _ _ _ t l ht hl ⟨args, rfl, rfl, hfits, -⟩
        refine .finish (.of (.shortCallBare sigil name args) ⟨⟨hfits.proper, ?_⟩, trivial,
          hfits.room⟩ rfl)
        cases hyield : args.yield with
        | nil => rfl
        | cons u tokens =>
            rw [hyield] at hl
            obtain rfl : u = t := (List.cons.inj hl).1
            exact ht

/-! ### Assignments and expressions -/

theorem assignment_reads (hin : inner.Reads n)
    (hP : ∀ l, P l → l.head?.any (·.is (.symbol .hash)) = false) :
    Reads n looped P size (Derives .statement n looped id) (assignment inner) := by
  refine .current fun t => .headed (Q := fun u => u = t ∧ t.is (.symbol .hash) = false) ?_
    (fun _ => completes_statement hin.room) (expr_reads hin) ?_
  · intro u l h
    obtain rfl := Option.some.inj h.2
    exact ⟨rfl, hP _ h.1⟩
  rintro _ _ rest u l ⟨rfl, hhash⟩ hl ⟨e, rfl, rfl, hfits, -⟩
  obtain ⟨v, hhead, -, hline, hword⟩ := e.exists_head rfl rest
  obtain rfl : v = u := by
    rw [hl] at hhead
    exact (Option.some.inj hhead).symm
  have hstarts : startsWith .hash e.yield = false := (hword .hash).trans hhash
  have hvalue : ∀ rest, Derives .statement n looped id (e.yield ++ [])
      (.expression e.meaning v.line) rest := by
    rw [List.append_nil, ← hline]
    exact fun _ => .of (.expression e) ⟨⟨hfits.proper, hstarts⟩, trivial, hfits.room⟩ rfl
  refine .ifAt ?_ (.done hvalue)
  cases htarget : isAssignable e.meaning with
  | false =>
      rw [show id e.meaning = e.meaning from rfl, htarget]
      exact .complain fun _ => ⟨[], _, [], List.forall_mem_nil _, hvalue []⟩
  | true =>
      rw [show id e.meaning = e.meaning from rfl, htarget]
      refine .mark (fun _ h => h.2) fun mark => .map (expr_reads hin) ?_
      rintro _ _ _ ⟨value, rfl, rfl, hfits', -⟩
      refine ⟨.assign e mark value, rfl, ?_, ⟨⟨hfits.proper, hfits'.proper, htarget, hstarts⟩,
        trivial, room_max hfits.room hfits'.room⟩, nofun⟩
      show Node.assign e.meaning value.meaning (startLine e.yield) = _
      rw [hline]
      rfl

theorem statement_reads (hin : inner.Reads n) :
    Reads n looped P size (Derives .statement n looped id) (statement inner) := by
  refine .current fun t => ?_
  split
  · exact declaration_reads hin
  · exact conditional_reads hin
  · exact repetition_reads hin
  · exact iteration_reads hin
  · rename_i hitem
    obtain ⟨t, rfl, -⟩ := Terminal.exists_of_item (fun _ : Unit => .keyword .breakWord) () hitem
    exact loopControl_reads hin.room (fun l hl => by rw [hl.2]; rfl) fun hlooped word _ =>
      .of (.leave word) ⟨trivial, hlooped, hin.room⟩ rfl
  · rename_i hitem
    obtain ⟨t, rfl, -⟩ := Terminal.exists_of_item (fun _ : Unit => .keyword .continueWord) () hitem
    exact loopControl_reads hin.room (fun l hl => by rw [hl.2]; rfl) fun hlooped word _ =>
      .of (.next word) ⟨trivial, hlooped, hin.room⟩ rfl
  · exact cooldown_reads hin
  · exact longCall_reads hin
  · exact shortCall_reads hin
  · refine (block_reads hin).imp ?_
    rintro _ _ _ ⟨body, rfl, rfl, hfits, -⟩
    exact .of (.nested body) ⟨hfits.proper, hfits.safe, hfits.room⟩ rfl
  · rename_i hhash _
    refine assignment_reads hin fun l hl => ?_
    rw [hl.2]
    refine Bool.eq_false_iff.2 fun his => ?_
    obtain ⟨mark, hmark⟩ := Punct.exists_of_is his
    exact hhash (by rw [← hmark]; rfl)

/-- **The grammar reads derivations** at every level: so do the rules inside a place where some
levels are open, and so many more may be opened. -/
theorem rules_reads (levels n : Nat) (h : n + levels = maxNesting) : (rules levels).Reads n := by
  induction levels generalizing n with
  | zero =>
      have hfull : ¬n < maxNesting := by omega
      exact ⟨by omega, fun hn => absurd hn hfull, fun hn => absurd hn hfull,
        fun hn => absurd hn hfull, fun hn => absurd hn hfull⟩
  | succ levels ih =>
      have hin := ih (n + 1) (by omega)
      exact ⟨by omega, fun _ => expr_reads hin, fun _ => unary_reads hin,
        fun _ => negation_reads hin, fun _ => statement_reads hin⟩

/-- **Expressions are read as derived.** -/
theorem expr_sound (levels n : Nat) (looped : Bool) (h : n + levels = maxNesting) :
    Sound .expression n looped (expr (rules levels)) :=
  sound_of_reads fun _ => expr_reads (rules_reads levels n h)

end Grammar

end TriggerEngine
