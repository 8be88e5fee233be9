/-
**Derivations are unique.**

Two proper derivations of a phrase that start at the same token, and each stop where the phrase
has to, are the same derivation and leave the same tokens behind.  So a row of tokens has at most
one proper derivation.

The proof goes down one of the two trees, phrase by phrase.  The first token of a phrase decides its
production, so the other tree starts in the same way; where a part may be empty or goes on in a
loop, what stops the part decides.

Main results:

* `Derivation.unique` — **unique decomposition**;
* `Derivation.unique_script` — a row of tokens is derived in one way.
-/

import TriggerEngine.Proofs.Syntax.Boundary

set_option autoImplicit false

namespace TriggerEngine

/-! ### Terminals -/

/-- A family of items in which every value is written in its own way. -/
class Terminal.Faithful {α : Type} (item : α → Item) : Prop where
  inj : ∀ a b, item a = item b → a = b

instance {item : Unit → Item} : Terminal.Faithful item := ⟨fun _ _ _ => rfl⟩

instance : Terminal.Faithful Item.ident := ⟨fun _ _ => Item.ident.inj⟩

instance : Terminal.Faithful Item.string := ⟨fun _ _ => Item.string.inj⟩

instance : Terminal.Faithful Item.number := ⟨fun _ _ => Item.number.inj⟩

instance : Terminal.Faithful Label.item :=
  ⟨fun a b h => by cases a <;> cases b <;> cases h <;> rfl⟩

instance : Terminal.Faithful Ending.item :=
  ⟨fun a b h => by cases a <;> cases b <;> first | rfl | cases h⟩

instance (t : Tier) : Terminal.Faithful t.item :=
  ⟨fun a b h => Subtype.ext (Option.some.inj
    ((t.read_item a).symm.trans ((congrArg t.read h).trans (t.read_item b))))⟩

theorem Terminal.token_inj {α : Type} {item : α → Item} [hitem : Faithful item]
    {t t' : Terminal item} : t.token = t'.token ↔ t = t' := by
  refine ⟨fun h => ?_, congrArg _⟩
  obtain ⟨value, line, column⟩ := t
  obtain ⟨value', line', column'⟩ := t'
  obtain ⟨hvalue, rfl, rfl⟩ := Token.mk.inj h
  rw [hitem.inj value value' hvalue]

theorem Terminal.row_inj {α : Type} {item : α → Item} [Faithful item] {p : Token → Bool}
    (hp : ∀ t : Terminal item, p t.token = true)
    {marks marks' : List (Terminal item)} {rest rest' : List Token}
    (hrest : rest.head?.any p = false) (hrest' : rest'.head?.any p = false)
    (h : marks.map Terminal.token ++ rest = marks'.map Terminal.token ++ rest') :
    marks = marks' ∧ rest = rest' := by
  have hrow : ∀ row : List (Terminal item), ∀ t ∈ row.map Terminal.token, p t = true := by
    intro row t ht
    obtain ⟨m, -, rfl⟩ := List.mem_map.1 ht
    exact hp m
  have hmap : marks.map Terminal.token = marks'.map Terminal.token := by
    have htake := congrArg (List.takeWhile p) h
    rwa [takeWhile_row (hrow marks) hrest, takeWhile_row (hrow marks') hrest'] at htake
  refine ⟨(List.map_inj_right fun _ _ => Terminal.token_inj.1).1 hmap, ?_⟩
  rw [hmap] at h
  exact List.append_cancel_left h

namespace Derivation

variable {rest rest' : List Token}

/-- Two derivations of a phrase that stand before the same tokens are one. -/
def Unique {p : Phrase} (d : Derivation p) : Prop :=
  ∀ (d' : Derivation p) (rest rest' : List Token), d.Proper → d'.Proper →
    d.yield ++ rest = d'.yield ++ rest' → d.StopsBefore rest → d'.StopsBefore rest' →
      d = d' ∧ rest = rest'

/-- Whether all derivations that are smaller than a derivation are unique. -/
def Below {p : Phrase} (d : Derivation p) : Prop :=
  ∀ {q : Phrase} (e : Derivation q), sizeOf e < sizeOf d → e.Unique

-- two rows of tokens are compared token by token up to the first part that is a derivation
attribute [local simp] yield Terminal.token_inj

theorem Below.eq {p q : Phrase} {d : Derivation p} (ih : d.Below) (e : Derivation q)
    {e' : Derivation q} (hq : q ≠ .expr .factor) (he : sizeOf e < sizeOf d)
    (h : e.yield ++ rest = e'.yield ++ rest') (hproper : e.Proper) (hproper' : e'.Proper)
    (hs : q.stops rest = true) (hs' : q.stops rest' = true) : e = e' ∧ rest = rest' :=
  ih e he e' _ _ hproper hproper' h (stopsBefore_of_stops hq hs) (stopsBefore_of_stops hq hs')

/-! ### Operators -/

theorem unique_tier {t : Tier} (d : Derivation (.expr (.tier t))) (ih : d.Below) : d.Unique := by
  intro d' rest rest' hd hd' h hs hs'
  cases d with
  | chain head more =>
      cases d' with
      | chain head' more' =>
          obtain ⟨rfl, h₁⟩ := ih.eq head t.operand_ne_factor (by decreasing_tactic)
            (by simpa using h) hd.1 hd'.1 (more.stops_operand hs.1)
            (more'.stops_operand hs'.1)
          simpa using ih.eq more nofun (by decreasing_tactic) h₁ hd.2 hd'.2 hs.1 hs'.1

theorem not_operator {t : Tier} {op : Terminal t.item} {more : List Token}
    (h : (Phrase.tail t).stops (op.token :: more) = true) : False := by
  have hstop : (!t.continues (t.item op.value)) = true := h
  rw [(t.continues_item op.value).1] at hstop
  cases hstop

theorem unique_tail {t : Tier} (d : Derivation (.tail t)) (ih : d.Below) : d.Unique := by
  intro d' rest rest' hd hd' h hs hs'
  cases d <;> cases d'
  case tailEnd.tailEnd => exact ⟨rfl, h⟩
  case tailEnd.tailMore op operand more =>
    obtain rfl : rest = op.token :: (operand.yield ++ more.yield) ++ rest' := h
    exact (not_operator hs.1).elim
  case tailMore.tailEnd op operand more =>
    obtain rfl : op.token :: (operand.yield ++ more.yield) ++ rest = rest' := h
    exact (not_operator hs'.1).elim
  case tailMore.tailMore op operand more op' operand' more' =>
    obtain ⟨rfl, h₁⟩ := by simpa using h
    obtain ⟨rfl, h₂⟩ := ih.eq operand t.operand_ne_factor (by decreasing_tactic) h₁ hd.1 hd'.1
      (more.stops_operand hs.1)
      (more'.stops_operand hs'.1)
    simpa using ih.eq more nofun (by decreasing_tactic) h₂ hd.2 hd'.2 hs.1 hs'.1

theorem not_opens {r : Rank} (e : Derivation (.expr r)) (item : Item) {more : List Token}
    (hfirst : first (e.yield ++ more) = some item) (hopens : r.opens item = false) : False := by
  obtain ⟨item', hitem, hopens'⟩ := first_of_starts e.starts_yield more
  obtain rfl := Option.some.inj (hitem.symm.trans hfirst)
  rw [hopens] at hopens'
  cases hopens'

theorem sign_not_opensFactor (op : { op : Operator // op ∈ Tier.sum.operators }) :
    opensFactor (Tier.sum.item op) = false := by
  obtain ⟨op, hop⟩ := op
  cases op <;> rfl

theorem unique_negation (d : Derivation (.expr .negation)) (ih : d.Below) : d.Unique := by
  intro d' rest rest' hd hd' h hs hs'
  cases d <;> cases d'
  case negation.negation word operand word' operand' =>
    obtain ⟨rfl, h₁⟩ := by simpa using h
    simpa using ih.eq operand nofun (by decreasing_tactic) h₁ hd hd' hs.1 hs'.1
  case negation.positive word operand inner =>
    exact (not_opens inner (.keyword .notWord) (congrArg first h).symm rfl).elim
  case positive.negation inner word operand =>
    exact (not_opens inner (.keyword .notWord) (congrArg first h) rfl).elim
  case positive.positive inner inner' =>
    simpa using ih.eq inner nofun (by decreasing_tactic) h hd hd' hs.1 hs'.1

theorem unique_unary (d : Derivation (.expr .unary)) (ih : d.Below) : d.Unique := by
  intro d' rest rest' hd hd' h hs hs'
  cases d <;> cases d'
  case sign.sign op operand op' operand' =>
    obtain ⟨rfl, h₁⟩ := by simpa using h
    simpa using ih.eq operand nofun (by decreasing_tactic) h₁ hd hd' hs.1 hs'.1
  case sign.unsigned op operand inner =>
    exact (not_opens inner _ (congrArg first h).symm (sign_not_opensFactor op.value)).elim
  case unsigned.sign inner op operand =>
    exact (not_opens inner _ (congrArg first h) (sign_not_opensFactor op.value)).elim
  case unsigned.unsigned inner inner' =>
    simpa using ih.eq inner nofun (by decreasing_tactic) h hd hd' hs.1 hs'.1

/-! ### Rows of expressions -/

theorem not_closing {b : Bracket} (e : Derivation .expression) {more : List Token}
    (h : startsWith b.closing (e.yield ++ more) = true) : False := by
  obtain ⟨m, tokens, htokens⟩ := exists_of_startsWith h
  exact not_opens e (.symbol b.closing) (congrArg first htokens) (by cases b <;> rfl)

theorem unique_elements {b : Bracket} (d : Derivation (.elements b)) (ih : d.Below) :
    d.Unique := by
  intro d' rest rest' hd hd' h hs hs'
  have hend : startsWith b.closing rest = true := hs.1
  have hend' : startsWith b.closing rest' = true := hs'.1
  -- what closes the bracket stops an expression
  have hstop : ∀ {tokens : List Token}, startsWith b.closing tokens = true →
      Phrase.expression.stops tokens = true ∧ startsWith .comma tokens = false := by
    intro tokens hclosing
    obtain ⟨last, more, rfl⟩ := exists_of_startsWith hclosing
    cases b <;> exact ⟨rfl, rfl⟩
  cases d <;> cases d'
  case noElement.noElement => exact ⟨rfl, h⟩
  case noElement.lastElement e =>
    obtain rfl : rest = e.yield ++ rest' := h
    exact (not_closing e hend).elim
  case noElement.element e comma more =>
    obtain rfl : rest = (Derivation.element e comma more).yield ++ rest' := h
    exact (not_closing e (by simpa using hend)).elim
  case lastElement.noElement e =>
    obtain rfl : e.yield ++ rest = rest' := h
    exact (not_closing e hend').elim
  case element.noElement e comma more =>
    obtain rfl : (Derivation.element e comma more).yield ++ rest = rest' := h
    exact (not_closing e (by simpa using hend')).elim
  case lastElement.lastElement e e' =>
    simpa using ih.eq e nofun (by decreasing_tactic) h hd hd' (hstop hend).1 (hstop hend').1
  case lastElement.element e e' comma more =>
    obtain ⟨-, rfl⟩ := ih.eq e nofun (by decreasing_tactic) (by simpa using h) hd hd'.1
      (hstop hend).1 rfl
    cases (hstop hend).2
  case element.lastElement e comma more e' =>
    obtain ⟨-, rfl⟩ := ih.eq e nofun (by decreasing_tactic) (by simpa using h) hd.1 hd' rfl
      (hstop hend').1
    cases (hstop hend').2
  case element.element e comma more e' comma' more' =>
    obtain ⟨rfl, h₁⟩ := ih.eq e nofun (by decreasing_tactic) (by simpa using h) hd.1 hd'.1 rfl rfl
    obtain ⟨rfl, h₂⟩ := by simpa using h₁
    simpa using ih.eq more nofun (by decreasing_tactic) h₂ hd.2 hd'.2 hs.1 hs'.1

theorem unique_arguments (d : Derivation .arguments) (ih : d.Below) : d.Unique := by
  intro d' rest rest' hd hd' h _ _
  cases d with
  | arguments head items last =>
      cases d' with
      | arguments head' items' last' =>
          obtain ⟨rfl, h₁⟩ := by simpa using h
          obtain ⟨rfl, h₂⟩ := ih.eq items nofun (by decreasing_tactic) h₁ hd hd' rfl rfl
          simpa using h₂

theorem unique_bare (d : Derivation .bare) (ih : d.Below) : d.Unique := by
  intro d' rest rest' hd hd' h hs hs'
  obtain ⟨hend, hcomma⟩ := Phrase.stops_of_bare hs.1
  obtain ⟨hend', hcomma'⟩ := Phrase.stops_of_bare hs'.1
  cases d <;> cases d'
  case lastBare.lastBare e e' =>
    simpa using ih.eq e nofun (by decreasing_tactic) h hd hd' hend hend'
  case lastBare.bare e e' comma more =>
    obtain ⟨-, rfl⟩ := ih.eq e nofun (by decreasing_tactic) (by simpa using h) hd hd'.1 hend rfl
    cases hcomma
  case bare.lastBare e comma more e' =>
    obtain ⟨-, rfl⟩ := ih.eq e nofun (by decreasing_tactic) (by simpa using h) hd.1 hd' rfl hend'
    cases hcomma'
  case bare.bare e comma more e' comma' more' =>
    obtain ⟨rfl, h₁⟩ := ih.eq e nofun (by decreasing_tactic) (by simpa using h) hd.1 hd'.1 rfl rfl
    obtain ⟨rfl, h₂⟩ := by simpa using h₁
    simpa using ih.eq more nofun (by decreasing_tactic) h₂ hd.2 hd'.2 hs.1 hs'.1

/-! ### Rows of statements -/

theorem eq_noStatement_of_stops {d : Derivation .statements} {more : List Token}
    (h : (d.yield ++ more).head?.any Grammar.stopsBlock = true) : d = .noStatement := by
  cases hleft : d.yield ++ more with
  | nil =>
      rw [hleft] at h
      cases h
  | cons t tokens =>
      rw [hleft] at h
      exact d.eq_noStatement hleft.symm h

theorem not_stopsBlock {ending : Terminal Ending.item} {more : List Token}
    (h : (ending.token :: more).head?.any Grammar.stopsBlock = true) : False := by
  obtain ⟨value, line, column⟩ := ending
  cases value <;> cases h

theorem Below.endings_eq {p : Phrase} {d : Derivation p} (ih : d.Below)
    {endings endings' : List (Terminal Ending.item)} {e e' : Derivation .statements}
    (h : endings.map Terminal.token ++ (e.yield ++ rest) =
      endings'.map Terminal.token ++ (e'.yield ++ rest')) (hproper : e.Proper)
    (hproper' : e'.Proper) (hblock : rest.head?.any Grammar.stopsBlock = true)
    (hblock' : rest'.head?.any Grammar.stopsBlock = true)
    (he : sizeOf e < sizeOf d) : endings = endings' ∧ e = e' ∧ rest = rest' := by
  obtain ⟨rfl, h₁⟩ := Terminal.row_inj
    (fun t => isSeparator_of_mem (List.mem_map_of_mem (List.mem_singleton_self t)))
    (e.head_statements hblock).1 (e'.head_statements hblock').1 h
  simpa using ih.eq e nofun he h₁ hproper hproper' hblock hblock'

theorem unique_statements (d : Derivation .statements) (ih : d.Below) : d.Unique := by
  intro d' rest rest' hd hd' h hs hs'
  have hblock : rest.head?.any Grammar.stopsBlock = true := hs.1
  have hblock' : rest'.head?.any Grammar.stopsBlock = true := hs'.1
  have hend := Phrase.stops_statement_of_stopsBlock hblock
  have hend' := Phrase.stops_statement_of_stopsBlock hblock'
  -- one of the two is empty, or both start with a statement
  by_cases hempty : d = .noStatement
  · subst hempty
    obtain rfl : rest = d'.yield ++ rest' := h
    obtain rfl := eq_noStatement_of_stops hblock
    exact ⟨rfl, rfl⟩
  by_cases hempty' : d' = .noStatement
  · subst hempty'
    obtain rfl : d.yield ++ rest = rest' := h
    exact absurd (eq_noStatement_of_stops hblock') hempty
  cases d <;> cases d' <;> try contradiction
  case lastStatement.lastStatement s s' =>
    simpa using ih.eq s nofun (by decreasing_tactic) h hd hd' hend hend'
  case lastStatement.statement s s' ending endings more =>
    obtain ⟨-, rfl⟩ := ih.eq s nofun (by decreasing_tactic) (by simpa using h) hd hd'.1 hend
      (more.stops_statement ending endings hblock')
    exact (not_stopsBlock hblock).elim
  case statement.lastStatement s ending endings more s' =>
    obtain ⟨-, rfl⟩ := ih.eq s nofun (by decreasing_tactic) (by simpa using h) hd.1 hd'
      (more.stops_statement ending endings hblock) hend'
    exact (not_stopsBlock hblock').elim
  case statement.statement s ending endings more s' ending' endings' more' =>
    obtain ⟨rfl, h₁⟩ := ih.eq s nofun (by decreasing_tactic) (by simpa using h) hd.1 hd'.1
      (more.stops_statement ending endings hblock) (more'.stops_statement ending' endings' hblock')
    obtain ⟨rfl, h₂⟩ := by simpa using h₁
    obtain ⟨rfl, rfl, rfl⟩ := ih.endings_eq h₂ hd.2 hd'.2 hblock hblock' (by decreasing_tactic)
    exact ⟨rfl, rfl⟩

theorem unique_block (d : Derivation .block) (ih : d.Below) : d.Unique := by
  intro d' rest rest' hd hd' h _ _
  cases d with
  | block opening endings body closing =>
      cases d' with
      | block opening' endings' body' closing' =>
          obtain ⟨rfl, h₁⟩ := by simpa using h
          obtain ⟨rfl, rfl, h₂⟩ := ih.endings_eq h₁ hd hd' rfl rfl (by decreasing_tactic)
          simpa using h₂

theorem unique_scriptBody (d : Derivation .script) (ih : d.Below) : d.Unique := by
  intro d' rest rest' hd hd' h hs hs'
  have hblock : ∀ {tokens : List Token}, Phrase.script.stops tokens = true →
      tokens.head?.any Grammar.stopsBlock = true := by
    intro tokens hstop
    cases tokens with
    | nil => cases hstop
    | cons t tokens => exact Bool.or_eq_true_iff.2 (.inr hstop)
  cases d with
  | script endings body =>
      cases d' with
      | script endings' body' =>
          obtain ⟨rfl, rfl, rfl⟩ := ih.endings_eq (by simpa using h) (show body.Proper from hd)
            (show body'.Proper from hd') (hblock hs.1) (hblock hs'.1) (by decreasing_tactic)
          exact ⟨rfl, rfl⟩

/-! ### Conditionals -/

theorem Below.case_eq {p : Phrase} {d : Derivation p} (ih : d.Below)
    {test test' : Derivation .expression} {body body' : Derivation .block}
    {alt alt' : Derivation .alternative}
    (h : test.yield ++ (body.yield ++ (alt.yield ++ rest)) =
      test'.yield ++ (body'.yield ++ (alt'.yield ++ rest')))
    (hd : test.Proper ∧ body.Proper ∧ alt.Proper) (hd' : test'.Proper ∧ body'.Proper ∧ alt'.Proper)
    (hs : (!elseFollows rest) = true) (hs' : (!elseFollows rest') = true)
    (hsize : sizeOf test + sizeOf body + sizeOf alt < sizeOf d) :
    test = test' ∧ body = body' ∧ alt = alt' ∧ rest = rest' := by
  obtain ⟨rfl, h₁⟩ := ih.eq test nofun (by omega) h hd.1 hd'.1 (body.stops_block _)
    (body'.stops_block _)
  obtain ⟨rfl, h₂⟩ := ih.eq body nofun (by omega) h₁ hd.2.1 hd'.2.1 rfl rfl
  simpa using ih.eq alt nofun (by omega) h₂ hd.2.2 hd'.2.2 hs hs'

theorem eq_noClause {alt : Derivation .alternative}
    (h : Phrase.alternative.stops (alt.yield ++ rest) = true) : alt = .noClause := by
  cases alt with
  | noClause => rfl
  | clause lines d =>
      have hnone : (!elseFollows ((lines.map Terminal.token ++ d.yield) ++ rest)) = true := h
      rw [List.append_assoc, elseFollows_lines, (d.elseFollows_clause rest).2] at hnone
      cases hnone

theorem unique_alternative (d : Derivation .alternative) (ih : d.Below) : d.Unique := by
  intro d' rest rest' hd hd' h hs hs'
  cases d <;> cases d'
  case noClause.noClause => exact ⟨rfl, h⟩
  case noClause.clause lines e =>
    obtain rfl : rest = (Derivation.clause lines e).yield ++ rest' := h
    cases eq_noClause hs.1
  case clause.noClause lines e =>
    obtain rfl : (Derivation.clause lines e).yield ++ rest = rest' := h
    cases eq_noClause hs'.1
  case clause.clause lines e lines' e' =>
    obtain ⟨rfl, h₁⟩ := Terminal.row_inj (p := Token.isLineEnd) (fun _ => rfl)
      (e.elseFollows_clause rest).1 (e'.elseFollows_clause rest').1 (by simpa using h)
    simpa using ih.eq e nofun (by decreasing_tactic) h₁ hd hd' hs.1 hs'.1

theorem unique_clause (d : Derivation .clause) (ih : d.Below) : d.Unique := by
  intro d' rest rest' hd hd' h hs hs'
  cases d <;> cases d' <;> try cases congrArg first h
  case elif.elif word test body alt word' test' body' alt' =>
    obtain ⟨rfl, h₁⟩ := by simpa using h
    simpa [and_assoc] using ih.case_eq h₁ hd hd' hs.1 hs'.1 (by simp)
  case elseIf.elseIf word more test body alt word' more' test' body' alt' =>
    obtain ⟨rfl, rfl, h₁⟩ := by simpa using h
    simpa [and_assoc] using ih.case_eq h₁ hd hd' hs.1 hs'.1 (by simp)
  case elseIf.otherwise word more test body alt word' body' =>
    cases body'
    cases congrArg (fun tokens => first tokens.tail) h
  case otherwise.elseIf word body _ _ _ _ _ =>
    cases body
    cases congrArg (fun tokens => first tokens.tail) h
  case otherwise.otherwise word body word' body' =>
    obtain ⟨rfl, h₁⟩ := by simpa using h
    simpa using ih.eq body nofun (by decreasing_tactic) h₁ hd hd' rfl rfl

/-! ### Starts of statements -/

/-- What a statement starts with that is neither an expression nor an assignment. -/
def lead? : {p : Phrase} → Derivation p → Option Item
  | _, .declare _ _ | _, .define _ _ _ _ => some (.keyword .letWord)
  | _, .nested _ => some (.symbol .lbrace)
  | _, .conditional _ _ _ _ => some (.keyword .ifWord)
  | _, .repetition _ _ _ => some (.keyword .whileWord)
  | _, .iteration _ _ _ _ _ | _, .range _ _ _ _ _ _ _ => some (.keyword .forWord)
  | _, .leave _ => some (.keyword .breakWord)
  | _, .next _ => some (.keyword .continueWord)
  | _, .cooldown _ _ _ _ => some (.keyword .setWord)
  | _, .longCall _ _ _ | _, .longCallWith _ _ _ _ _ => some (.keyword .callWord)
  | _, .shortCall _ _ | _, .shortCallBare _ _ _ | _, .shortCallGroup _ _ _ =>
    some (.symbol .hash)
  | _, _ => none

theorem first_of_lead? {d : Derivation .statement} {item : Item} (h : d.lead? = some item)
    (more : List Token) : first (d.yield ++ more) = some item ∧
      ((Rank.tier .disjunction).opens item = false ∨ item = .symbol .hash) := by
  cases d with
  | assign | expression => cases h
  | nested body =>
      cases body
      cases h
      exact ⟨rfl, .inl rfl⟩
  | shortCall | shortCallBare | shortCallGroup =>
      cases h
      exact ⟨rfl, .inr rfl⟩
  | _ =>
      cases h
      exact ⟨rfl, .inl rfl⟩

theorem opens_of_lead? {d : Derivation .statement} (hd : d.lead? = none) (hproper : d.Proper)
    (more : List Token) : ∃ item, first (d.yield ++ more) = some item ∧
      (Rank.tier .disjunction).opens item = true ∧ item ≠ .symbol .hash := by
  have hhash : ∀ {tokens : List Token} {item : Item}, startsWith .hash tokens = false →
      first tokens = some item → item ≠ .symbol .hash := by
    rintro tokens item hnot hfirst rfl
    cases tokens with
    | nil => cases hfirst
    | cons t tokens =>
        have ht : t.item = .symbol .hash := Option.some.inj hfirst
        have his : t.is (.symbol .hash) = true := by
          rw [Token.is, ht]
          rfl
        rw [show startsWith .hash (t :: tokens) = t.is (.symbol .hash) from rfl, his] at hnot
        cases hnot
  cases d with
  | assign target mark value =>
      obtain ⟨item, hitem, hopens⟩ := first_of_starts target.starts_yield []
      rw [List.append_nil] at hitem
      refine ⟨item, ?_, hopens, hhash hproper.2.2.2 hitem⟩
      exact first_append _ (first_append _ hitem)
  | expression e =>
      obtain ⟨item, hitem, hopens⟩ := first_of_starts e.starts_yield []
      rw [List.append_nil] at hitem
      exact ⟨item, first_append _ hitem, hopens, hhash hproper.2 hitem⟩
  | _ => cases hd

theorem lead?_ne_none {d d' : Derivation .statement} {item : Item}
    (h : d.yield ++ rest = d'.yield ++ rest') (hd : d.lead? = some item) (hd' : d'.lead? = none)
    (hproper : d'.Proper) : False := by
  obtain ⟨item', hfirst, hopens, hhash⟩ := opens_of_lead? hd' hproper rest'
  obtain ⟨hitem, hno⟩ := first_of_lead? hd rest
  obtain rfl := Option.some.inj (hitem.symm.trans ((congrArg first h).trans hfirst))
  rcases hno with hno | hno
  · rw [hno] at hopens
    cases hopens
  · exact hhash hno

/-- **The first token decides how a statement starts.** -/
theorem lead?_eq {d d' : Derivation .statement} (hd : d.Proper) (hd' : d'.Proper)
    (h : d.yield ++ rest = d'.yield ++ rest') : d.lead? = d'.lead? := by
  cases hl : d.lead? with
  | none =>
      cases hl' : d'.lead? with
      | none => rfl
      | some item' => exact (lead?_ne_none h.symm hl' hl hd).elim
  | some item =>
      cases hl' : d'.lead? with
      | none => exact (lead?_ne_none h hl hl' hd').elim
      | some item' =>
          rw [← (first_of_lead? hl rest).1, ← (first_of_lead? hl' rest').1, h]

/-! ### Primary expressions -/

theorem unique_primary (d : Derivation (.expr .primary)) (ih : d.Below) : d.Unique := by
  intro d' rest rest' hd hd' h hs hs'
  cases d with
  | primary factor trailers =>
      cases d' with
      | primary factor' trailers' =>
          obtain ⟨rfl, h₁⟩ := ih factor (by decreasing_tactic) factor' _ _ hd.1 hd'.1
            (by simpa using h)
            ⟨by cases trailers.yield ++ rest <;> rfl, bare_stops hd hs.1⟩
            ⟨by cases trailers'.yield ++ rest' <;> rfl, bare_stops hd' hs'.1⟩
          simpa using ih.eq trailers nofun (by decreasing_tactic) h₁ hd.2.1 hd'.2.1 hs.1 hs'.1

theorem eq_trailersEnd {trailers : Derivation .trailers}
    (hs : Phrase.trailers.stops (trailers.yield ++ rest) = true) : trailers = .trailersEnd := by
  cases trailers with
  | trailersEnd => rfl
  | call args more =>
      cases args
      cases hs
  | _ => cases hs

theorem unique_trailers (d : Derivation .trailers) (ih : d.Below) : d.Unique := by
  intro d' rest rest' hd hd' h hs hs'
  -- one of the two ends here, or both go on
  by_cases hend : d = .trailersEnd
  · subst hend
    obtain rfl : rest = d'.yield ++ rest' := h
    obtain rfl := eq_trailersEnd hs.1
    exact ⟨rfl, rfl⟩
  by_cases hend' : d' = .trailersEnd
  · subst hend'
    obtain rfl : d.yield ++ rest = rest' := h
    exact absurd (eq_trailersEnd hs'.1) hend
  cases d <;> cases d' <;> first | exact absurd rfl hend | exact absurd rfl hend' | skip
  case member.member dot name more dot' name' more' =>
    obtain ⟨rfl, rfl, h₁⟩ := by simpa using h
    simpa using ih.eq more nofun (by decreasing_tactic) h₁ hd hd' hs.1 hs'.1
  case index.index head key last more head' key' last' more' =>
    obtain ⟨rfl, h₁⟩ := by simpa using h
    obtain ⟨rfl, h₂⟩ := ih.eq key nofun (by decreasing_tactic) h₁ hd.1 hd'.1 rfl rfl
    obtain ⟨rfl, h₃⟩ := by simpa using h₂
    simpa using ih.eq more nofun (by decreasing_tactic) h₃ hd.2 hd'.2 hs.1 hs'.1
  case call.call args more args' more' =>
    obtain ⟨rfl, h₁⟩ := ih.eq args nofun (by decreasing_tactic) (by simpa using h) hd.1 hd'.1 rfl
      rfl
    simpa using ih.eq more nofun (by decreasing_tactic) h₁ hd.2 hd'.2 hs.1 hs'.1
  case member.call args _ | index.call args _ =>
    cases args
    cases congrArg first h
  case call.member args _ _ _ _ | call.index args _ _ _ _ _ =>
    cases args
    cases congrArg first h
  all_goals cases congrArg first h

theorem placeholder_ne_reference {sigil sigil' : Punct .dollar}
    {name name' : Terminal Label.item} {args : Derivation .arguments}
    (h : sigil.token :: name.token :: rest =
      sigil'.token :: name'.token :: (args.yield ++ rest'))
    (hs : (Derivation.placeholder sigil name).StopsBefore rest) : False := by
  obtain ⟨-, -, rfl⟩ := by simpa using h
  cases args
  cases hs.2 rfl

theorem unique_factor (d : Derivation (.expr .factor)) (ih : d.Below) : d.Unique := by
  intro d' rest rest' hd hd' h hs hs'
  -- nearly all pairs of productions differ in their first tokens
  cases d <;> cases d' <;> try cases congrArg first h
  case globalName.globalKey | globalKey.globalName =>
    cases congrArg (fun tokens => first tokens.tail) h
  case group.group head inner last head' inner' last' =>
    obtain ⟨rfl, h₁⟩ := by simpa using h
    obtain ⟨rfl, h₂⟩ := ih.eq inner nofun (by decreasing_tactic) h₁ hd hd' rfl rfl
    simpa using h₂
  case list.list head items last head' items' last' =>
    obtain ⟨rfl, h₁⟩ := by simpa using h
    obtain ⟨rfl, h₂⟩ := ih.eq items nofun (by decreasing_tactic) h₁ hd hd' rfl rfl
    simpa using h₂
  case globalKey.globalKey word head key last word' head' key' last' =>
    obtain ⟨rfl, rfl, h₁⟩ := by simpa using h
    obtain ⟨rfl, h₂⟩ := ih.eq key nofun (by decreasing_tactic) h₁ hd hd' rfl rfl
    simpa using h₂
  case reference.reference role sigil name args role' sigil' name' args' =>
    obtain rfl : role = role' := by
      have hfirst : some (Item.symbol role.mark) = some (Item.symbol role'.mark) :=
        congrArg first h
      cases role <;> cases role' <;> first | rfl | cases hfirst
    obtain ⟨rfl, rfl, h₁⟩ := by simpa using h
    simpa using ih.eq args nofun (by decreasing_tactic) h₁ hd hd' rfl rfl
  case reference.placeholder role sigil name args sigil' name' =>
    cases role with
    | placeholder => exact (placeholder_ne_reference h.symm hs').elim
    | _ => cases congrArg first h
  case placeholder.reference sigil name role sigil' name' args =>
    cases role with
    | placeholder => exact (placeholder_ne_reference h hs).elim
    | _ => cases congrArg first h
  case group.reference role _ _ _ | list.reference role _ _ _ =>
    cases role <;> cases congrArg first h
  case reference.group role _ _ _ _ _ _ | reference.list role _ _ _ _ _ _ =>
    cases role <;> cases congrArg first h
  all_goals simpa [and_assoc] using h

/-! ### Statements -/

theorem ends_of_stops (h : Phrase.statement.stops rest = true) :
    rest.head?.any Grammar.endsStatement = true ∧ elseFollows rest = false := by
  obtain ⟨hends, helse⟩ := Bool.and_eq_true_iff.1
    (show (rest.head?.any Grammar.endsStatement && !elseFollows rest) = true from h)
  exact ⟨hends, (Bool.not_eq_true' _).mp helse⟩

theorem not_bare {args : Derivation .bare} {more : List Token}
    (h : Phrase.statement.stops (args.yield ++ more) = true) : False := by
  have hends := (ends_of_stops h).1
  obtain ⟨t, ht, hopens, -⟩ := args.exists_head rfl more
  rw [ht] at hends
  have hno := Grammar.opens_of_ends (show Grammar.endsStatement t = true from hends)
  rw [show (Rank.tier .disjunction).opens t.item = true from hopens] at hno
  cases hno

theorem group_ne_bare {args : Derivation .arguments} {args' : Derivation .bare}
    (hparen : startsWith .lparen args'.yield = false)
    (h : args.yield ++ rest = args'.yield ++ rest') : False := by
  cases args with
  | arguments head items last =>
      obtain ⟨t, ht, -, -, hstart⟩ := args'.exists_head rfl rest'
      obtain rfl : head.token = t := Option.some.inj ((congrArg List.head? h).trans ht)
      rw [hstart] at hparen
      cases hparen

theorem unique_statement (d : Derivation .statement) (ih : d.Below) : d.Unique := by
  intro d' rest rest' hd hd' h hs hs'
  have hends := (ends_of_stops hs.1).1
  have hends' := (ends_of_stops hs'.1).1
  obtain ⟨hvalue, hbare⟩ := Phrase.stops_of_ends hends
  obtain ⟨hvalue', hbare'⟩ := Phrase.stops_of_ends hends'
  -- statements with different leads differ at once; the pairs below share theirs, or have none
  cases d <;> cases d' <;> try cases lead?_eq hd hd' h
  case declare.define =>
    obtain ⟨-, -, rfl⟩ := by simpa using h
    cases hends
  case define.declare =>
    obtain ⟨-, -, rfl⟩ := by simpa using h
    cases hends'
  case define.define word name mark value word' name' mark' value' =>
    obtain ⟨rfl, rfl, rfl, h₁⟩ := by simpa using h
    simpa using ih.eq value nofun (by decreasing_tactic) h₁ hd hd' hvalue hvalue'
  case assign.assign target mark value target' mark' value' =>
    obtain ⟨rfl, h₁⟩ := ih.eq target nofun (by decreasing_tactic) (by simpa using h) hd.1 hd'.1 rfl
      rfl
    obtain ⟨rfl, h₂⟩ := by simpa using h₁
    simpa using ih.eq value nofun (by decreasing_tactic) h₂ hd.2.1 hd'.2.1 hvalue hvalue'
  case assign.expression target mark value e =>
    obtain ⟨-, rfl⟩ := ih.eq target nofun (by decreasing_tactic) (by simpa using h) hd.1 hd'.1 rfl
      hvalue'
    cases hends'
  case expression.assign e target mark value =>
    obtain ⟨-, rfl⟩ := ih.eq e nofun (by decreasing_tactic) (by simpa using h) hd.1 hd'.1 hvalue rfl
    cases hends
  case expression.expression e e' =>
    simpa using ih.eq e nofun (by decreasing_tactic) h hd.1 hd'.1 hvalue hvalue'
  case nested.nested body body' =>
    simpa using ih.eq body nofun (by decreasing_tactic) h hd hd' rfl rfl
  case conditional.conditional word test body alt word' test' body' alt' =>
    obtain ⟨rfl, h₁⟩ := by simpa using h
    simpa [and_assoc] using ih.case_eq h₁ hd hd' (Bool.and_eq_true_iff.1 hs.1).2
      (Bool.and_eq_true_iff.1 hs'.1).2 (by simp)
  case repetition.repetition word test body word' test' body' =>
    obtain ⟨rfl, h₁⟩ := by simpa using h
    obtain ⟨rfl, h₂⟩ := ih.eq test nofun (by decreasing_tactic) h₁ hd.1 hd'.1 (body.stops_block _)
      (body'.stops_block _)
    simpa using ih.eq body nofun (by decreasing_tactic) h₂ hd.2 hd'.2 rfl rfl
  case iteration.iteration word name among source body word' name' among' source' body' =>
    obtain ⟨rfl, rfl, rfl, h₁⟩ := by simpa using h
    obtain ⟨rfl, h₂⟩ := ih.eq source nofun (by decreasing_tactic) h₁ hd.1 hd'.1 (body.stops_block _)
      (body'.stops_block _)
    simpa using ih.eq body nofun (by decreasing_tactic) h₂ hd.2 hd'.2 rfl rfl
  case iteration.range word name among source body word' name' among' source' dots bound body' =>
    obtain ⟨-, -, -, h₁⟩ := by simpa using h
    obtain ⟨-, h₂⟩ := ih.eq source nofun (by decreasing_tactic) h₁ hd.1 hd'.1 (body.stops_block _)
      rfl
    cases body
    cases congrArg first h₂
  case range.iteration word name among source dots bound body word' name' among' source' body' =>
    obtain ⟨-, -, -, h₁⟩ := by simpa using h
    obtain ⟨-, h₂⟩ := ih.eq source nofun (by decreasing_tactic) h₁ hd.1 hd'.1 rfl
      (body'.stops_block _)
    cases body'
    cases congrArg first h₂
  case range.range word name among source dots bound body word' name' among' source' dots' bound'
      body' =>
    obtain ⟨rfl, rfl, rfl, h₁⟩ := by simpa using h
    obtain ⟨rfl, h₂⟩ := ih.eq source nofun (by decreasing_tactic) h₁ hd.1 hd'.1 rfl rfl
    obtain ⟨rfl, h₃⟩ := by simpa using h₂
    obtain ⟨rfl, h₄⟩ := ih.eq bound nofun (by decreasing_tactic) h₃ hd.2.1 hd'.2.1
      (body.stops_block _) (body'.stops_block _)
    simpa using ih.eq body nofun (by decreasing_tactic) h₄ hd.2.2 hd'.2.2 rfl rfl
  case cooldown.cooldown word what upTo seconds word' what' upTo' seconds' =>
    obtain ⟨rfl, rfl, rfl, h₁⟩ := by simpa using h
    simpa using ih.eq seconds nofun (by decreasing_tactic) h₁ hd hd' hvalue hvalue'
  case longCall.longCallWith =>
    obtain ⟨-, -, -, rfl⟩ := by simpa using h
    cases hends
  case longCallWith.longCall =>
    obtain ⟨-, -, -, rfl⟩ := by simpa using h
    cases hends'
  case longCallWith.longCallWith word what name having args word' what' name' having' args' =>
    obtain ⟨rfl, rfl, rfl, rfl, h₁⟩ := by simpa using h
    simpa using ih.eq args nofun (by decreasing_tactic) h₁ hd hd' hbare hbare'
  case shortCall.shortCallBare =>
    obtain ⟨-, -, rfl⟩ := by simpa using h
    exact (not_bare hs.1).elim
  case shortCall.shortCallGroup args =>
    obtain ⟨-, -, rfl⟩ := by simpa using h
    cases args
    cases hends
  case shortCallBare.shortCall =>
    obtain ⟨-, -, rfl⟩ := by simpa using h
    exact (not_bare hs'.1).elim
  case shortCallBare.shortCallBare sigil name args sigil' name' args' =>
    obtain ⟨rfl, rfl, h₁⟩ := by simpa using h
    simpa using ih.eq args nofun (by decreasing_tactic) h₁ hd.1 hd'.1 hbare hbare'
  case shortCallBare.shortCallGroup =>
    obtain ⟨-, -, h₁⟩ := by simpa using h
    exact (group_ne_bare hd.2 h₁.symm).elim
  case shortCallGroup.shortCall sigil name args sigil' name' =>
    obtain ⟨-, -, rfl⟩ := by simpa using h
    cases args
    cases hends'
  case shortCallGroup.shortCallBare =>
    obtain ⟨-, -, h₁⟩ := by simpa using h
    exact (group_ne_bare hd'.2 h₁).elim
  case shortCallGroup.shortCallGroup sigil name args sigil' name' args' =>
    obtain ⟨rfl, rfl, h₁⟩ := by simpa using h
    simpa using ih.eq args nofun (by decreasing_tactic) h₁ hd hd' rfl rfl
  all_goals simpa [and_assoc] using h

/-! ### All phrases -/

/-- **Unique decomposition**: a proper derivation that stops before what follows it is the only
one that starts at its first token. -/
theorem unique {p : Phrase} (d : Derivation p) : d.Unique := by
  have ih : d.Below := fun e _ => unique e
  cases p with
  | expr r =>
      cases r with
      | tier t => exact unique_tier d ih
      | negation => exact unique_negation d ih
      | unary => exact unique_unary d ih
      | primary => exact unique_primary d ih
      | factor => exact unique_factor d ih
  | tail t => exact unique_tail d ih
  | trailers => exact unique_trailers d ih
  | elements b => exact unique_elements d ih
  | arguments => exact unique_arguments d ih
  | bare => exact unique_bare d ih
  | statement => exact unique_statement d ih
  | statements => exact unique_statements d ih
  | block => exact unique_block d ih
  | alternative => exact unique_alternative d ih
  | clause => exact unique_clause d ih
  | script => exact unique_scriptBody d ih
termination_by sizeOf d

theorem unique_script {d d' : Derivation .script} (hd : d.Proper) (hd' : d'.Proper)
    (h : d.yield = d'.yield) : d = d' := by
  have hstops : Phrase.script.stops [⟨.eof, 0, 0⟩] = true := rfl
  exact (unique d d' _ _ hd hd' (by rw [h]) (stopsBefore_of_stops (by simp) hstops)
    (stopsBefore_of_stops (by simp) hstops)).1

end Derivation

end TriggerEngine
