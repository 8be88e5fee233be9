/-
**Where phrases start and where they stop.**

Which token comes next decides between the productions of the grammar.  What a derivation of a
phrase starts with is known from the phrase, and so is what must not follow it: behind an
expression no operator that it could have taken, behind a conditional no further case, behind the
elements of a list the mark that closes it.

Main definitions:

* `Tier.read` — the operators of a tier, as the grammar reads them;
* `Phrase.starts` — what a derivation of a phrase may start with;
* `Phrase.stops`, `Derivation.StopsBefore` — what may follow a derivation.

Main results:

* `Derivation.starts_yield` — every derivation starts as its phrase says;
* `Derivation.stops_operand`, `Derivation.stops_statement` — the parts of a phrase stop where the
  next part starts.
-/

import TriggerEngine.Proofs.Syntax.Reading

set_option autoImplicit false

namespace TriggerEngine

/-! ### Operators -/

/-- The operator of a tier that an item is. -/
def Tier.read : Tier → Item → Option Operator
  | .disjunction => Grammar.disjunction?
  | .conjunction => Grammar.conjunction?
  | .comparison => Grammar.comparison?
  | .sum => Grammar.additive?
  | .product => Grammar.multiplicative?

theorem Tier.read_eq_some {t : Tier} {item : Item} {op : Operator} :
    t.read item = some op ↔ ∃ h : op ∈ t.operators, item = t.item ⟨op, h⟩ := by
  constructor
  · intro h
    cases t <;> simp only [Tier.read] at h
    case disjunction =>
      unfold Grammar.disjunction? at h
      split at h <;> cases h
      exact ⟨by decide, rfl⟩
    case conjunction =>
      unfold Grammar.conjunction? at h
      split at h <;> cases h
      exact ⟨by decide, rfl⟩
    case comparison =>
      unfold Grammar.comparison? at h
      split at h <;> cases h
      all_goals exact ⟨by decide, rfl⟩
    case sum =>
      unfold Grammar.additive? at h
      split at h <;> cases h
      all_goals exact ⟨by decide, rfl⟩
    case product =>
      unfold Grammar.multiplicative? at h
      split at h <;> cases h
      all_goals exact ⟨by decide, rfl⟩
  · rintro ⟨h, rfl⟩
    cases t <;> cases op <;> first | rfl | (exact absurd h (by decide))

theorem Tier.read_item (t : Tier) (op : { op : Operator // op ∈ t.operators }) :
    t.read (t.item op) = some op.val :=
  Tier.read_eq_some.2 ⟨op.property, rfl⟩

theorem Tier.item_not_eof {t : Tier} (op : { op : Operator // op ∈ t.operators }) :
    (t.item op).is .eof = false := by
  obtain ⟨op, hop⟩ := op
  cases op <;> rfl

/-! ### Starts -/

/-- What the first token of a row says. -/
def first (tokens : List Token) : Option Item :=
  tokens.head?.map Token.item

@[simp] theorem first_nil : first [] = none := rfl

@[simp] theorem first_cons (token : Token) (tokens : List Token) :
    first (token :: tokens) = some token.item := rfl

theorem first_append {tokens : List Token} {item : Item} (rest : List Token)
    (h : first tokens = some item) : first (tokens ++ rest) = some item := by
  cases tokens with
  | nil => cases h
  | cons t tokens => exact h

/-- What a factor may start with. -/
def opensFactor : Item → Bool
  | .number _ => true
  | .string _ => true
  | .ident _ => true
  | .keyword k => [Keyword.trueWord, .falseWord, .nullWord, .globalWord].contains k
  | .symbol s => [Symbol.lparen, .lbracket, .hash, .at, .dollar].contains s
  | _ => false

/-- Whether an item continues a primary expression. -/
def isTrailing : Item → Bool
  | .symbol s => [Symbol.dot, .lbracket, .lparen].contains s
  | _ => false

/-- What an expression of a rank may start with. -/
def Rank.opens : Rank → Item → Bool
  | .factor, item => opensFactor item
  | .primary, item => opensFactor item
  | .unary, item => opensFactor item || (Tier.sum.read item).isSome
  | .tier .product, item => opensFactor item || (Tier.sum.read item).isSome
  | .tier .sum, item => opensFactor item || (Tier.sum.read item).isSome
  | .tier .comparison, item => opensFactor item || (Tier.sum.read item).isSome
  | _, item =>
    opensFactor item || (Tier.sum.read item).isSome || item.is (.keyword .notWord)

/-- What a statement that is no expression may start with. -/
def opensCommand : Item → Bool
  | .keyword k => [Keyword.letWord, .ifWord, .whileWord, .forWord, .breakWord, .continueWord,
    .setWord, .callWord].contains k
  | .symbol .lbrace => true
  | _ => false

/-- What a derivation of a phrase may start with; some phrases may be empty. -/
def Phrase.starts : Phrase → Option Item → Bool
  | .expr r, some item => r.opens item
  | .expr _, none => false
  | .tail t, some item => (t.read item).isSome
  | .tail _, none => true
  | .trailers, some item => isTrailing item
  | .trailers, none => true
  | .elements _, some item => (Rank.tier .disjunction).opens item
  | .elements _, none => true
  | .arguments, some item => item.is (.symbol .lparen)
  | .arguments, none => false
  | .bare, some item => (Rank.tier .disjunction).opens item
  | .bare, none => false
  | .statement, some item => (Rank.tier .disjunction).opens item || opensCommand item
  | .statement, none => false
  | .statements, some item => (Rank.tier .disjunction).opens item || opensCommand item
  | .statements, none => true
  | .block, some item => item.is (.symbol .lbrace)
  | .block, none => false
  | .alternative, some item =>
    item.is .newline || item.is (.keyword .elifWord) || item.is (.keyword .elseWord)
  | .alternative, none => true
  | .clause, some item => item.is (.keyword .elifWord) || item.is (.keyword .elseWord)
  | .clause, none => false
  | .script, _ => true

theorem Rank.opens_tier {t : Tier} {item : Item} (h : t.operand.opens item = true) :
    (Rank.tier t).opens item = true := by
  cases t <;> simp_all [Tier.operand, Rank.opens]

theorem first_of_starts {r : Rank} {tokens : List Token}
    (h : (Phrase.expr r).starts (first tokens) = true) (rest : List Token) :
    ∃ item, first (tokens ++ rest) = some item ∧ r.opens item = true := by
  cases tokens with
  | nil => cases h
  | cons t tokens => exact ⟨t.item, rfl, h⟩

/-- **Every derivation starts as its phrase says.** -/
theorem Derivation.starts_yield {p : Phrase} (d : Derivation p) :
    p.starts (first d.yield) = true := by
  -- where a production starts with another phrase, the start of that phrase is carried over
  induction d with
  | @chain t head rest ih _ =>
      obtain ⟨item, hitem, hopens⟩ := first_of_starts ih rest.yield
      show (Phrase.expr (.tier t)).starts (first (head.yield ++ rest.yield)) = true
      rw [hitem]
      exact Rank.opens_tier hopens
  | @tailMore t op operand rest _ _ =>
      show (t.read (t.item op.value)).isSome = true
      rw [Tier.read_item]
      rfl
  | positive inner ih =>
      obtain ⟨item, hitem, hopens⟩ := first_of_starts ih []
      show (Phrase.expr .negation).starts (first inner.yield) = true
      rw [← List.append_nil inner.yield, hitem]
      exact Bool.or_eq_true_iff.2 (.inl hopens)
  | sign op operand _ =>
      show (opensFactor _ || (Tier.sum.read (Tier.sum.item op.value)).isSome) = true
      rw [Tier.read_item, Bool.or_eq_true_iff]
      exact .inr rfl
  | unsigned inner ih =>
      obtain ⟨item, hitem, hopens⟩ := first_of_starts ih []
      show (Phrase.expr .unary).starts (first inner.yield) = true
      rw [← List.append_nil inner.yield, hitem]
      exact Bool.or_eq_true_iff.2 (.inl hopens)
  | primary factor trailers ih _ =>
      obtain ⟨item, hitem, hopens⟩ := first_of_starts ih trailers.yield
      show (Phrase.expr .primary).starts (first (factor.yield ++ trailers.yield)) = true
      rw [hitem]
      exact hopens
  | call args rest _ _ =>
      cases args
      rfl
  | reference role => cases role <;> rfl
  | lastElement head ih =>
      obtain ⟨item, hitem, hopens⟩ := first_of_starts ih []
      show (Phrase.elements _).starts (first head.yield) = true
      rw [← List.append_nil head.yield, hitem]
      exact hopens
  | element head comma rest ih _ =>
      obtain ⟨item, hitem, hopens⟩ := first_of_starts ih (comma.token :: rest.yield)
      show (Phrase.elements _).starts (first (head.yield ++ comma.token :: rest.yield)) = true
      rw [hitem]
      exact hopens
  | lastBare argument ih =>
      obtain ⟨item, hitem, hopens⟩ := first_of_starts ih []
      show Phrase.bare.starts (first argument.yield) = true
      rw [← List.append_nil argument.yield, hitem]
      exact hopens
  | bare argument comma rest ih _ =>
      obtain ⟨item, hitem, hopens⟩ := first_of_starts ih (comma.token :: rest.yield)
      show Phrase.bare.starts (first (argument.yield ++ comma.token :: rest.yield)) = true
      rw [hitem]
      exact hopens
  | assign target mark value ih _ =>
      obtain ⟨item, hitem, hopens⟩ := first_of_starts ih (mark.token :: value.yield)
      show Phrase.statement.starts (first (target.yield ++ mark.token :: value.yield)) = true
      rw [hitem]
      exact Bool.or_eq_true_iff.2 (.inl hopens)
  | expression value ih =>
      obtain ⟨item, hitem, hopens⟩ := first_of_starts ih []
      show Phrase.statement.starts (first value.yield) = true
      rw [← List.append_nil value.yield, hitem]
      exact Bool.or_eq_true_iff.2 (.inl hopens)
  | nested body _ =>
      cases body
      rfl
  | lastStatement head ih =>
      show Phrase.statements.starts (first head.yield) = true
      cases hfirst : first head.yield with
      | none => rfl
      | some item => rwa [hfirst] at ih
  | statement head ending endings rest ih _ =>
      show Phrase.statements.starts (first (head.yield ++ _)) = true
      cases hfirst : first head.yield with
      | none =>
          rw [hfirst] at ih
          cases ih
      | some item =>
          rw [first_append _ hfirst]
          rwa [hfirst] at ih
  | clause lines inner ih =>
      show Phrase.alternative.starts (first (lines.map Terminal.token ++ inner.yield)) = true
      cases lines with
      | cons line lines => rfl
      | nil =>
          show Phrase.alternative.starts (first inner.yield) = true
          cases inner <;> rfl
  | _ => rfl

theorem Phrase.is_symbol_of_starts {p : Phrase} {token : Token} {s : Symbol}
    (h : p.starts (some token.item) = true) (hs : p.starts (some (.symbol s)) = false) :
    token.is (.symbol s) = false := by
  refine Bool.eq_false_iff.2 fun his => ?_
  obtain ⟨m, rfl⟩ := Punct.exists_of_is his
  rw [show p.starts (some (.symbol s)) = true from h] at hs
  cases hs

theorem Derivation.exists_head {p : Phrase} (d : Derivation p) (hp : p.starts none = false)
    (rest : List Token) :
    ∃ t : Token, (d.yield ++ rest).head? = some t ∧ p.starts (some t.item) = true ∧
      startLine d.yield = t.line ∧ ∀ s, startsWith s d.yield = t.is (.symbol s) := by
  have hstarts := d.starts_yield
  cases hd : d.yield with
  | nil =>
      rw [hd, first_nil, hp] at hstarts
      cases hstarts
  | cons t tokens =>
      rw [hd] at hstarts
      exact ⟨t, rfl, hstarts, rfl, fun _ => rfl⟩

theorem Derivation.startsWith_append {p : Phrase} (d : Derivation p) (hp : p.starts none = false)
    {s : Symbol} (hs : p.starts (some (.symbol s)) = false) (rest : List Token) :
    startsWith s (d.yield ++ rest) = false := by
  obtain ⟨t, htoken, hstarts, -⟩ := d.exists_head hp rest
  rw [startsWith, htoken]
  exact Phrase.is_symbol_of_starts hstarts hs

theorem Derivation.length_pos {p : Phrase} (d : Derivation p) (hp : p.starts none = false) :
    0 < d.yield.length := by
  refine List.length_pos_iff.2 fun hnil => ?_
  have hstarts := d.starts_yield
  rw [hnil, first_nil, hp] at hstarts
  cases hstarts

theorem Derivation.eq_noStatement (d : Derivation .statements) {token : Token}
    {rest more : List Token} (h : token :: rest = d.yield ++ more)
    (hstop : Grammar.stopsBlock token = true) : d = .noStatement := by
  have hstarts := d.starts_yield
  have hyield : d.yield = [] := by
    cases hd : d.yield with
    | nil => rfl
    | cons t tokens =>
        rw [hd, List.cons_append] at h
        obtain ⟨rfl, -⟩ := List.cons.inj h
        rw [hd] at hstarts
        rcases Bool.or_eq_true_iff.1 hstop with hbrace | heof
        · obtain ⟨m, rfl⟩ := Punct.exists_of_is hbrace
          cases hstarts
        · cases hitem : token.item <;> simp_all [Token.is, Item.is, Item.kind, Phrase.starts,
            Rank.opens, opensFactor, opensCommand, Tier.read, Grammar.additive?]
  cases d with
  | noStatement => rfl
  | lastStatement head =>
      have hhead := head.starts_yield
      rw [show head.yield = [] from hyield] at hhead
      cases hhead
  | statement head ending endings rest =>
      cases (List.append_eq_nil_iff.1 (show head.yield ++ _ :: _ = [] from hyield)).2

/-! ### Stops -/

/-- The tiers that hold together at least as tightly as a tier. -/
def Tier.inside : Tier → List Tier
  | .disjunction => [.disjunction, .conjunction, .comparison, .sum, .product]
  | .conjunction => [.conjunction, .comparison, .sum, .product]
  | .comparison => [.comparison, .sum, .product]
  | .sum => [.sum, .product]
  | .product => [.product]

/-- Whether an item continues an expression of a tier. -/
def Tier.continues (t : Tier) (item : Item) : Bool :=
  (t.inside.any fun u => (u.read item).isSome) || isTrailing item

/-- Whether an item continues an expression of a rank. -/
def Rank.continues : Rank → Item → Bool
  | .tier t, item => t.continues item
  | .negation, item => Tier.comparison.continues item
  | .unary, item => isTrailing item
  | .primary, item => isTrailing item
  | .factor, _ => false

/-- Whether a further case of a conditional follows, perhaps on a later line. -/
def elseFollows (tokens : List Token) : Bool :=
  (tokens.dropWhile Token.isLineEnd).head?.any fun t =>
    t.is (.keyword .elifWord) || t.is (.keyword .elseWord)

/-- What may follow a derivation of a phrase. -/
def Phrase.stops : Phrase → List Token → Bool
  | .expr r, rest => (first rest).all fun item => !r.continues item
  | .tail t, rest => (first rest).all fun item => !t.continues item
  | .trailers, rest => (first rest).all fun item => !isTrailing item
  | .elements b, rest => startsWith b.closing rest
  | .arguments, _ => true
  | .bare, rest => (first rest).all fun item =>
    !Tier.disjunction.continues item && !item.is (.symbol .comma)
  | .statement, rest => rest.head?.any Grammar.endsStatement && !elseFollows rest
  | .statements, rest => rest.head?.any Grammar.stopsBlock
  | .block, _ => true
  | .alternative, rest => !elseFollows rest
  | .clause, rest => !elseFollows rest
  | .script, rest => rest.head?.any (·.is .eof)

/-- Whether a derivation stops before what follows it: nothing there belongs to the phrase, and a
placeholder without arguments has no parenthesis behind it. -/
def Derivation.StopsBefore {p : Phrase} (d : Derivation p) (rest : List Token) : Prop :=
  p.stops rest = true ∧ (d.isBare = true → startsWith .lparen rest = false)

theorem exists_of_startsWith {s : Symbol} {tokens : List Token}
    (h : startsWith s tokens = true) : ∃ (m : Punct s) (rest : List Token),
      tokens = m.token :: rest := by
  cases tokens with
  | nil => cases h
  | cons t tokens =>
      obtain ⟨m, rfl⟩ := Punct.exists_of_is h
      exact ⟨m, tokens, rfl⟩

theorem Derivation.stopsBefore_iff {p : Phrase} (hp : p ≠ .expr .factor) (d : Derivation p)
    (rest : List Token) : d.StopsBefore rest ↔ p.stops rest = true := by
  refine ⟨And.left, fun h => ⟨h, fun hbare => ?_⟩⟩
  cases d <;> first | exact absurd rfl hp | cases hbare

theorem Derivation.stopsBefore_of_stops {p : Phrase} {d : Derivation p} {rest : List Token}
    (hp : p ≠ .expr .factor) (h : p.stops rest = true) : d.StopsBefore rest :=
  (d.stopsBefore_iff hp rest).2 h

theorem Tier.operand_ne_factor (t : Tier) : Phrase.expr t.operand ≠ .expr .factor := by
  cases t <;> simp [Tier.operand]

theorem Tier.continues_of_operand {t : Tier} {item : Item}
    (h : t.operand.continues item = true) : t.continues item = true := by
  rw [Tier.continues, Bool.or_eq_true_iff]
  cases t with
  | product => exact .inr h
  | _ =>
      rcases Bool.or_eq_true_iff.1 h with h | h
      · exact .inl (Bool.or_eq_true_iff.2 (.inr h))
      · exact .inr h

theorem Tier.continues_item (t : Tier) (op : { op : Operator // op ∈ t.operators }) :
    t.continues (t.item op) = true ∧ t.operand.continues (t.item op) = false := by
  obtain ⟨op, hop⟩ := op
  cases t <;> cases op <;> first | exact ⟨rfl, rfl⟩ | exact absurd hop (by decide)

theorem Tier.continues_of_read {t : Tier} {item : Item} {op : Operator}
    (h : t.read item = some op) : t.continues item = true := by
  obtain ⟨hmem, rfl⟩ := Tier.read_eq_some.1 h
  exact (t.continues_item ⟨op, hmem⟩).1

theorem Derivation.stops_operand {t : Tier} (d : Derivation (.tail t)) {rest : List Token}
    (h : (Phrase.tail t).stops rest = true) :
    (Phrase.expr t.operand).stops (d.yield ++ rest) = true := by
  cases d with
  | tailMore op operand more =>
      show (!t.operand.continues (t.item op.value)) = true
      rw [(t.continues_item op.value).2]
      rfl
  | tailEnd =>
      show (Phrase.expr t.operand).stops rest = true
      cases rest with
      | nil => rfl
      | cons token rest =>
          have hnot : t.continues token.item = false := by simpa [Phrase.stops] using h
          have hoperand : t.operand.continues token.item = false :=
            Bool.eq_false_iff.2 fun hc => by rw [Tier.continues_of_operand hc] at hnot; cases hnot
          show (!t.operand.continues token.item) = true
          rw [hoperand]
          rfl

theorem Derivation.bare_stops {d : Derivation (.expr .factor)} {e : Derivation .trailers}
    {rest : List Token}
    (hproper : (Derivation.primary d e).Proper) (hstops : Phrase.trailers.stops rest = true)
    (hbare : d.isBare = true) : startsWith .lparen (e.yield ++ rest) = false := by
  have hparen := hproper.2.2 hbare
  cases he : e.yield with
  | cons t tokens =>
      rw [he] at hparen
      exact hparen
  | nil =>
      refine Bool.eq_false_iff.2 fun hstart => ?_
      obtain ⟨m, more, rfl⟩ := exists_of_startsWith hstart
      cases hstops

theorem Phrase.stops_of_bare {rest : List Token} (h : Phrase.bare.stops rest = true) :
    Phrase.expression.stops rest = true ∧ startsWith .comma rest = false := by
  cases rest with
  | nil => exact ⟨rfl, rfl⟩
  | cons t rest =>
      obtain ⟨hcontinues, hcomma⟩ := Bool.and_eq_true_iff.1
        (show (!Tier.disjunction.continues t.item && !t.item.is (.symbol .comma)) = true from h)
      exact ⟨hcontinues, (Bool.not_eq_true' _).mp hcomma⟩

/-! ### Rows of statements -/

theorem Grammar.is_false_of_ends {token : Token} {kind : Kind}
    (h : Grammar.endsStatement token = true)
    (hkind : kind ∉ [.newline, .symbol .semi, .eof, .symbol .rbrace]) :
    token.is kind = false := by
  simp only [List.mem_cons, List.not_mem_nil, or_false, not_or] at hkind
  obtain ⟨hnewline, hsemi, heof, hbrace⟩ := hkind
  simp only [Grammar.endsStatement, Parse.isSeparator, Bool.or_eq_true_iff] at h
  rcases h with ((h | h) | h) | h
  · exact Token.is_of_ne h (Ne.symm hnewline)
  · exact Token.is_of_ne h (Ne.symm hsemi)
  · exact Token.is_of_ne h (Ne.symm heof)
  · exact Token.is_of_ne h (Ne.symm hbrace)

theorem Grammar.item_of_ends {token : Token} (h : Grammar.endsStatement token = true) :
    token.item = .newline ∨ token.item = .symbol .semi ∨ token.item = .eof ∨
      token.item = .symbol .rbrace := by
  cases hitem : token.item <;>
    simp_all [Grammar.endsStatement, Parse.isSeparator, Token.is, Item.is, Item.kind]

theorem Grammar.opens_of_ends {token : Token} (h : Grammar.endsStatement token = true) :
    (Rank.tier .disjunction).opens token.item = false := by
  rcases Grammar.item_of_ends h with hitem | hitem | hitem | hitem <;> rw [hitem] <;> rfl

theorem Phrase.stops_of_ends {rest : List Token}
    (h : rest.head?.any Grammar.endsStatement = true) :
    Phrase.expression.stops rest = true ∧ Phrase.bare.stops rest = true := by
  cases rest with
  | nil => cases h
  | cons t rest =>
      rcases Grammar.item_of_ends (show Grammar.endsStatement t = true from h) with
        hitem | hitem | hitem | hitem <;>
        exact ⟨by rw [Phrase.stops, first_cons, hitem]; rfl,
          by rw [Phrase.stops, first_cons, hitem]; rfl⟩

theorem Derivation.stops_block (d : Derivation .block) (rest : List Token) :
    Phrase.expression.stops (d.yield ++ rest) = true := by
  cases d
  rfl

theorem elseFollows_cons_of_neg {token : Token} (tokens : List Token)
    (hline : token.isLineEnd = false) :
    elseFollows (token :: tokens) =
      (token.is (.keyword .elifWord) || token.is (.keyword .elseWord)) := by
  rw [elseFollows, List.dropWhile_cons_of_neg (Bool.eq_false_iff.1 hline)]
  rfl

theorem elseFollows_endings (endings : List (Terminal Ending.item)) {tokens : List Token}
    (h : elseFollows tokens = false) :
    elseFollows (endings.map Terminal.token ++ tokens) = false := by
  induction endings with
  | nil => exact h
  | cons ending endings ih =>
      obtain ⟨value, line, column⟩ := ending
      cases value with
      | newline => exact ih
      | semi => rfl

theorem elseFollows_lines (lines : List LineEnd) (tokens : List Token) :
    elseFollows (lines.map Terminal.token ++ tokens) = elseFollows tokens := by
  induction lines with
  | nil => rfl
  | cons line lines ih => exact ih

theorem Derivation.elseFollows_clause (d : Derivation .clause) (rest : List Token) :
    (d.yield ++ rest).head?.any Token.isLineEnd = false ∧
      elseFollows (d.yield ++ rest) = true := by
  cases d <;> exact ⟨rfl, rfl⟩

theorem Derivation.head_statements (d : Derivation .statements) {rest : List Token}
    (h : rest.head?.any Grammar.stopsBlock = true) :
    (d.yield ++ rest).head?.any Parse.isSeparator = false ∧
      elseFollows (d.yield ++ rest) = false := by
  have hstarts := d.starts_yield
  cases hd : d.yield with
  | nil =>
      -- there is no statement, and the next token is the one that stops the row
      cases rest with
      | nil => cases h
      | cons t rest =>
          rcases Bool.or_eq_true_iff.1 (show Grammar.stopsBlock t = true from h) with h | h
          · obtain ⟨m, rfl⟩ := Punct.exists_of_is h
            exact ⟨rfl, rfl⟩
          · have hline : t.isLineEnd = false := Token.is_of_ne h (by decide)
            refine ⟨Bool.or_eq_false_iff.2 ⟨hline, Token.is_of_ne h (by decide)⟩, ?_⟩
            rw [List.nil_append, elseFollows_cons_of_neg _ hline, Token.is_of_ne h (by decide),
              Token.is_of_ne h (by decide)]
            rfl
  | cons t tokens =>
      rw [hd] at hstarts
      rw [List.cons_append]
      have hstarts : Phrase.statements.starts (some t.item) = true := hstarts
      have hline : t.isLineEnd = false := by
        refine Bool.eq_false_iff.2 fun hline => ?_
        obtain ⟨m, rfl⟩ := LineEnd.exists_of_is hline
        cases hstarts
      refine ⟨Bool.or_eq_false_iff.2 ⟨hline, Phrase.is_symbol_of_starts hstarts rfl⟩, ?_⟩
      rw [elseFollows_cons_of_neg _ hline, Bool.or_eq_false_iff]
      constructor
      · refine Bool.eq_false_iff.2 fun hword => ?_
        obtain ⟨m, rfl⟩ := Word.exists_of_is hword
        cases hstarts
      · refine Bool.eq_false_iff.2 fun hword => ?_
        obtain ⟨m, rfl⟩ := Word.exists_of_is hword
        cases hstarts

theorem takeWhile_row {p : Token → Bool} {tokens rest : List Token}
    (h : ∀ t ∈ tokens, p t = true) (hrest : rest.head?.any p = false) :
    (tokens ++ rest).takeWhile p = tokens := by
  rw [List.takeWhile_append_of_pos h]
  cases rest with
  | nil => exact List.append_nil _
  | cons t rest =>
      have ht : ¬p t = true := Bool.eq_false_iff.1 hrest
      rw [List.takeWhile_cons_of_neg ht, List.append_nil]

theorem isSeparator_of_mem {endings : List (Terminal Ending.item)} {t : Token}
    (h : t ∈ endings.map Terminal.token) : Parse.isSeparator t = true := by
  obtain ⟨⟨value, line, column⟩, -, rfl⟩ := List.mem_map.1 h
  cases value <;> rfl

theorem isLineEnd_of_mem {lines : List LineEnd} {t : Token}
    (h : t ∈ lines.map Terminal.token) : t.isLineEnd = true := by
  obtain ⟨line, -, rfl⟩ := List.mem_map.1 h
  rfl

theorem Derivation.stops_statement (d : Derivation .statements)
    (ending : Terminal Ending.item) (endings : List (Terminal Ending.item)) {rest : List Token}
    (h : rest.head?.any Grammar.stopsBlock = true) :
    Phrase.statement.stops
      (ending.token :: (endings.map Terminal.token ++ (d.yield ++ rest))) = true := by
  refine Bool.and_eq_true_iff.2 ⟨?_, ?_⟩
  · obtain ⟨value, line, column⟩ := ending
    cases value <;> rfl
  · rw [Bool.not_eq_true']
    exact elseFollows_endings (ending :: endings) (d.head_statements h).2

theorem Phrase.stops_statement_of_stopsBlock {rest : List Token}
    (h : rest.head?.any Grammar.stopsBlock = true) : Phrase.statement.stops rest = true := by
  have helse := (Derivation.noStatement.head_statements h).2
  cases rest with
  | nil => cases h
  | cons t rest =>
      refine Bool.and_eq_true_iff.2 ⟨?_, by rw [Bool.not_eq_true']; exact helse⟩
      show Grammar.endsStatement t = true
      rw [Grammar.endsStatement, Bool.or_assoc, Bool.or_comm (t.is .eof)]
      exact Bool.or_eq_true_iff.2 (.inr h)

/-! ### Looking for a further case -/

namespace Grammar

open Cursor Parse

/-- The block behind a last `else`, if there is one. -/
def lastBlock (inner : Rules) : Parse (Option Node) := do
  if ← atKeyword .elseWord then
    advance
    return some (← block inner)
  else return none

/-- Cases of a conditional, the last one first, each as the alternative of the case before it. -/
def nest (cases : List (Node × Node × Line)) (last : Option Node) : Option Node :=
  cases.foldl (fun tail (test, body, line) => some (.conditional test body tail line)) last

/-- A further case, and the cases behind it. -/
def caseThen {α : Type} (inner : Rules) (line : Line) (k : Node × Node × Line → Parse α) : Parse α := do
  advance
  let test ← expr inner
  let body ← block inner
  skipToElse
  k (test, body, line)

theorem casesF_succ (inner : Rules) (n : Nat) (acc : List (Node × Node × Line)) :
    casesF inner (n + 1) acc = atCase >>= fun found =>
      if found = true then current >>= fun token =>
        if token.is (.keyword .elseWord) = true then advance >>= fun _ =>
          caseThen inner token.line fun case => casesF inner n (case :: acc)
        else caseThen inner token.line fun case => casesF inner n (case :: acc)
      else pure acc := by
  rw [casesF]
  rfl

variable {c : Cursor}

theorem primary_eq (inner : Rules) : primary inner = factor inner >>= fun node =>
    get >>= fun c : Cursor => trailersF inner (c.remaining + 1) node := by
  refine bind_congr fun node => funext fun c => ?_
  show (if isTrailer c.current then trailersF inner (c.remaining + 1) node else pure node).runFrom c =
    (trailersF inner (c.remaining + 1) node).runFrom c
  split
  · rfl
  · rename_i hnot
    rw [trailersF, runFrom_bind_current]
    split <;> first | rfl | (rename_i hitem; simp [isTrailer, Token.is, Item.is, Item.kind, hitem] at hnot)

theorem chain_eq (op? : Item → Option Operator) (operand : Parse Node) :
    chain op? operand = operand >>= fun left =>
      get >>= fun c : Cursor => chainF op? operand (c.remaining + 1) left := by
  refine bind_congr fun left => funext fun c => ?_
  show (if (op? c.current.item).isSome then chainF op? operand (c.remaining + 1) left
    else pure left).runFrom c = (chainF op? operand (c.remaining + 1) left).runFrom c
  split
  · rfl
  · rename_i hnot
    rw [chainF, runFrom_bind_current, Option.not_isSome_iff_eq_none.1 hnot]

/-- The further cases of a conditional and its last alternative, behind the cases read before. -/
def furtherCases (inner : Rules) (fuel : Nat) (acc : List (Node × Node × Line)) :
    Parse (Option Node) := do
  let cases ← casesF inner fuel acc
  let last ← lastBlock inner
  return nest cases last

/-- All that follows the first block of a conditional. -/
def alternative (inner : Rules) : Parse (Option Node) := do
  skipToElse
  furtherCases inner ((← get).remaining + 1) []

theorem conditional_eq_alternative (inner : Rules) : conditional inner = do
    let token ← eatKeyword .ifWord
    let test ← expr inner
    let body ← block inner
    let tail ← alternative inner
    return .conditional test body tail token.line := by
  unfold conditional alternative furtherCases lastBlock
  simp only [bind_assoc, pure_bind]
  repeat refine bind_congr fun _ => ?_
  split
  · simp only [bind_assoc, pure_bind]
    rfl
  · simp only [pure_bind]
    rfl

theorem furtherCases_succ (inner : Rules) (n : Nat) (acc : List (Node × Node × Line)) :
    furtherCases inner (n + 1) acc = atCase >>= fun found =>
      if found = true then current >>= fun token =>
        if token.is (.keyword .elseWord) = true then advance >>= fun _ =>
          caseThen inner token.line fun case => furtherCases inner n (case :: acc)
        else caseThen inner token.line fun case => furtherCases inner n (case :: acc)
      else lastBlock inner >>= fun last => pure (nest acc last) := by
  rw [furtherCases, casesF_succ, bind_assoc]
  refine bind_congr fun found => ?_
  cases found with
  | false => rfl
  | true =>
      refine (bind_assoc _ _ _).trans (bind_congr fun token => ?_)
      split <;> simp only [caseThen, bind_assoc] <;> rfl

theorem skipToElse_spec (he : Ended c.left) :
    ∃ c', skipToElse.runFrom c = (.ok (), c') ∧
      c.Passes (if elseFollows c.left = true then c.left.takeWhile Token.isLineEnd else []) c' ∧
      (c'.current.is (.keyword .elifWord) || c'.current.is (.keyword .elseWord)) =
        elseFollows c.left := by
  rw [skipToElse, runFrom_bind_at]
  by_cases hnew : c.current.isLineEnd = true
  · rw [if_pos (show c.current.is .newline = true from hnew)]
    obtain ⟨c₁, found, hrun, hpass, hfound⟩ := significant_spec he
    have hfollows : elseFollows c.left =
        (found.is (.keyword .elifWord) || found.is (.keyword .elseWord)) := by
      rw [elseFollows, hfound]
      rfl
    rw [bind_of_ok hrun, ← hfollows]
    cases helse : elseFollows c.left with
    | true =>
        -- what has been found is what stands behind the lines that are passed now
        obtain ⟨c', hskip, hpass'⟩ := skipLines_spec (hpass.ended he)
        rw [if_pos rfl, if_pos rfl]
        have hleft : c.left = c₁.left := hpass.left
        rw [← hleft] at hpass'
        refine ⟨c', hskip, hpass.nil_trans hpass', ?_⟩
        have hcur : (c.left.dropWhile Token.isLineEnd).head? = some c'.current := by
          have hdrop : c'.left = c.left.dropWhile Token.isLineEnd :=
            hpass'.left_eq (hleft ▸ List.takeWhile_append_dropWhile.symm)
          rw [← hdrop]
          rfl
        obtain rfl : c'.current = found := Option.some.inj (hcur.symm.trans hfound)
        rw [← hfollows, helse]
    | false =>
        -- tokens have been fetched, and none has been passed
        rw [if_neg Bool.false_ne_true, if_neg Bool.false_ne_true]
        refine ⟨c₁, rfl, hpass, ?_⟩
        have hcur : c.current = c₁.current := (List.cons.inj hpass.left).1
        rw [← hcur, Token.is_of_ne hnew (by decide), Token.is_of_ne hnew (by decide)]
        rfl
  · rw [if_neg (show ¬c.current.is .newline = true from hnew)]
    have htake : c.left.takeWhile Token.isLineEnd = [] := List.takeWhile_cons_of_neg hnew
    refine ⟨c, rfl, ?_, ?_⟩
    · rw [htake, ite_self]
      exact .refl c
    · rw [elseFollows, left, List.dropWhile_cons_of_neg hnew]
      rfl

theorem atCase_spec (he : Ended c.left) :
    ∃ c', atCase.runFrom c = (.ok (c.current.is (.keyword .elifWord) ||
      c.current.is (.keyword .elseWord) && c.left[1]?.any (·.is (.keyword .ifWord))), c') ∧
        c.Passes [] c' := by
  rw [atCase, runFrom_bind_atKeyword]
  cases helif : c.current.is (.keyword .elifWord) with
  | true => exact ⟨c, rfl, .refl c⟩
  | false =>
      rw [if_neg Bool.false_ne_true, runFrom_bind_atKeyword]
      cases helse : c.current.is (.keyword .elseWord) with
      | false => exact ⟨c, rfl, .refl c⟩
      | true =>
          have hend : Ended (c.ahead ++ c.rest) :=
            Ended.tail (show Ended (c.current :: (c.ahead ++ c.rest)) from he)
              (Token.is_of_ne helse (by decide))
          obtain ⟨next, more, hnext⟩ := List.exists_cons_of_ne_nil hend.ne_nil
          have hsecond : c.left[0 + 1]? = some next := by
            rw [left, hnext]
            rfl
          obtain ⟨c', hpeek, hpass⟩ := peek_spec he hsecond
          refine ⟨c', ?_, hpass⟩
          rw [if_pos rfl, bind_of_ok (show (peek 1).runFrom c = (.ok next, c') from hpeek)]
          rw [show c.left[1]? = some next from hsecond]
          rfl

end Grammar

end TriggerEngine
