/-
**What the grammar puts out.**

Nothing in the type of nodes says that a program consists of statements and that these are made of
expressions.  The meaning of a derivation does: the parts of a tree mean expressions where
expressions belong and statements where statements belong, signs and operators take as many operands
as they should, and what is assigned to can be assigned to.  That `break` and `continue` stand only
inside loops is a condition on trees, and so it becomes a property of programs.

Main definitions:

* `Phrase.WellFormed` — what the meaning of a phrase should be, inside a loop or outside.

Main results:

* `Derivation.wellFormed_meaning` — the meaning of a tree is what it should be;
* `areStatements_of_compile` — **compiled programs are well-formed**.
-/

import TriggerEngine.Proofs.Run.WellFormed
import TriggerEngine.Proofs.Syntax.Concatenation

set_option autoImplicit false

namespace TriggerEngine

/-- What the meaning of a phrase should be, inside a loop or outside. -/
def Phrase.WellFormed (looped : Bool) : (p : Phrase) → p.Meaning → Prop
  | .expr _, node => node.IsExpression
  | .tail _, grow => ∀ node : Node, node.IsExpression → (grow node).IsExpression
  | .trailers, grow => ∀ node : Node, node.IsExpression → (grow node).IsExpression
  | .elements _, nodes => Node.AreExpressions nodes
  | .arguments, nodes => Node.AreExpressions nodes
  | .bare, nodes => Node.AreExpressions nodes
  | .statement, node => node.IsStatement looped
  | .statements, nodes => Node.AreStatements looped nodes
  | .block, node => node.IsStatement looped
  | .alternative, node? => ∀ node ∈ node?, Node.IsStatement looped node
  | .clause, node => node.IsStatement looped
  | .script, nodes => Node.AreStatements looped nodes

theorem Node.isTarget_of_isAssignable {node : Node} (h : Grammar.isAssignable node = true)
    (hnode : node.IsExpression) : node.IsTarget := by
  cases node with
  | ident name line => exact trivial
  | global key line => exact hnode
  | _ => cases h

theorem Node.isStatement_conditional {looped : Bool} {test body : Node} {otherwise : Option Node}
    {line : Line} (htest : test.IsExpression) (hbody : body.IsStatement looped)
    (hotherwise : ∀ node ∈ otherwise, node.IsStatement looped) :
    (Node.conditional test body otherwise line).IsStatement looped := by
  cases otherwise with
  | none => exact ⟨htest, hbody⟩
  | some node => exact ⟨htest, hbody, hotherwise node rfl⟩

theorem Tier.ne_not {t : Tier} (op : { op : Operator // op ∈ t.operators }) : op.val ≠ .not := by
  obtain ⟨op, hop⟩ := op
  rintro rfl
  cases t <;> simp [Tier.operators] at hop

namespace Derivation

/-- **The meaning of a tree is well-formed.** -/
theorem wellFormed_meaning {looped : Bool} {p : Phrase} (d : Derivation p) (hproper : d.Proper)
    (hsafe : d.LoopSafe looped) : p.WellFormed looped d.meaning := by
  -- An expression is the same inside a loop and outside.
  have plain {p : Phrase} {d : Derivation p} (hp : p.isPlain = true)
      (ih : ∀ {looped : Bool}, d.Proper → d.LoopSafe looped → p.WellFormed looped d.meaning)
      (hproper : d.Proper) : p.WellFormed false d.meaning :=
    ih hproper (d.loopSafe_of_isPlain hp)
  induction d generalizing looped with
  | chain first rest ihf ihr =>
      exact plain rfl ihr hproper.2 _ (plain rfl ihf hproper.1)
  | tailEnd | trailersEnd => exact fun _ hnode => hnode
  | tailMore op operand rest iho ihr =>
      exact fun _ hleft => plain rfl ihr hproper.2 _
        ⟨Tier.ne_not op.value, hleft, plain rfl iho hproper.1⟩
  | negation word operand ih => exact ⟨.inl rfl, plain rfl ih hproper⟩
  | positive inner ih | unsigned inner ih | group opening inner closing ih
  | reference role sigil name args ih | globalKey word opening key closing ih
  | define word name mark value ih | cooldown word what upTo seconds ih
  | longCallWith word what name having args ih | shortCallGroup sigil name args ih =>
      exact plain rfl ih hproper
  | sign op operand ih =>
      refine ⟨.inr ?_, plain rfl ih hproper⟩
      simpa [Tier.operators] using op.value.property
  | primary factor trailers ihf iht =>
      exact plain rfl iht hproper.2.1 _ (plain rfl ihf hproper.1)
  | member dot name rest ih => exact fun _ hnode => plain rfl ih hproper _ hnode
  | index opening key closing rest ihk ihr =>
      exact fun _ hnode => plain rfl ihr hproper.2 _ ⟨hnode, plain rfl ihk hproper.1⟩
  | call args rest iha ihr =>
      exact fun _ hnode => plain rfl ihr hproper.2 _ ⟨hnode, plain rfl iha hproper.1⟩
  | number | text | trueWord | falseWord | nullWord | ident | placeholder | globalName
  | noElement | declare | noStatement | longCall | shortCall => trivial
  | list opening items closing ih | arguments opening items closing ih =>
      exact plain rfl ih hproper
  | lastElement head ih | lastBare head ih => exact ⟨plain rfl ih hproper, trivial⟩
  | element head comma rest ihh ihr | bare head comma rest ihh ihr =>
      exact ⟨plain rfl ihh hproper.1, plain rfl ihr hproper.2⟩
  | assign target mark value iht ihv =>
      exact ⟨Node.isTarget_of_isAssignable hproper.2.2.1 (plain rfl iht hproper.1),
        plain rfl ihv hproper.2.1⟩
  | expression value ih | shortCallBare sigil name args ih => exact plain rfl ih hproper.1
  | nested body ih | block opening endings body closing ih | otherwise word body ih
  | script endings body ih => exact ih hproper hsafe
  | conditional word test body alt iht ihb iha | elif word test body alt iht ihb iha
  | elseIf word more test body alt iht ihb iha =>
      exact Node.isStatement_conditional (plain rfl iht hproper.1) (ihb hproper.2.1 hsafe.1)
        (iha hproper.2.2 hsafe.2)
  | repetition word test body iht ihb => exact ⟨plain rfl iht hproper.1, ihb hproper.2 hsafe⟩
  | iteration word name among source body ihs ihb =>
      exact ⟨plain rfl ihs hproper.1, ihb hproper.2 hsafe⟩
  | range word name among source dots bound body ihs ihn ihb =>
      exact ⟨plain rfl ihs hproper.1, plain rfl ihn hproper.2.1, ihb hproper.2.2 hsafe⟩
  | leave | next => exact hsafe
  | lastStatement first ih => exact ⟨ih hproper hsafe, trivial⟩
  | statement first ending endings rest ihf ihr =>
      exact ⟨ihf hproper.1 hsafe.1, ihr hproper.2 hsafe.2⟩
  | noClause => exact fun _ hnode => by cases hnode
  | clause lines inner ih =>
      rintro _ ⟨⟩
      exact ih hproper hsafe

end Derivation

/-- **Compiled programs are well-formed.** -/
theorem areStatements_of_compile {file source : String} {program : Program}
    (h : compile file source = .ok program) : Node.AreStatements false program := by
  obtain ⟨d, -, -, -, hfits, rfl⟩ := exists_derivation_of_compile h
  exact d.wellFormed_meaning hfits.proper hfits.safe

end TriggerEngine
