/-
**The nodes of scripts.**

A tree from outside may have anything in the place of its lines and names.  The nodes of a program
that was compiled stand in lines that have numbers, and their members are named by words: so says
the meaning of a derivation, and a compiled program is one.

Variables have names of a stricter kind.  A token can be a name that is written like a word of the
language, but then it has a number right beside it, and no production puts a variable beside a
number: what comes in front of an expression and what comes behind it is a mark, a word or the end
of a line.  So no variable is called like a word of the language.

Main definitions:

* `Node.IsScripted` — nodes as scripts have them;
* `Node.slot?`, `Node.IsNamed` — the variable of a node, and what it is called;
* `Phrase.Each` — what holds of all nodes of the meaning of a phrase.

Main results:

* `Derivation.each` — the meaning of a derivation between two neighbours;
* `scripted_of_compile` — **the nodes of compiled programs are as scripts have them**;
* `named_of_compile` — what the variables of compiled programs are called;
* `variables_no_keyword` — **no variable is called like a word of the language**.
-/

import TriggerEngine.Proofs.Run.Pairing
import TriggerEngine.Proofs.Syntax.Concatenation
import TriggerEngine.Proofs.Token.Gluing

set_option autoImplicit false

namespace TriggerEngine

namespace Node

/-- Whether a node is as scripts have it: it stands in a line with a number, and a member is named
by a word. -/
def IsScripted : Node → Prop
  | .member _ name line => (∃ word, name = .word word) ∧ ∃ n, line = .number n
  | .torn _ _ => False
  | .other _ _ => False
  | node => ∃ n, node.line = .number n

/-- The variable that a node reads, declares or counts with. -/
def slot? : Node → Option Name
  | .ident name _ => some name
  | .declare name _ _ => some name
  | .iteration name _ _ _ _ => some name
  | _ => none

/-- Whether a node is as scripts have it, and its variable is called by a word of some kind. -/
def IsNamed (P : String → Prop) (node : Node) : Prop :=
  node.IsScripted ∧ ∀ name ∈ node.slot?, ∃ word, name = .word word ∧ P word

theorem each_of_eq {P : Node → Prop} {node : Node} {below : List Node}
    (hnodes : node.nodes = node :: below) (hself : P node) (hbelow : ∀ part ∈ below, P part) :
    node.Each P := by
  intro part hpart
  rw [hnodes] at hpart
  exact (List.forall_mem_cons (p := P)).2 ⟨hself, hbelow⟩ part hpart

theorem eachOf_nil {P : Node → Prop} : EachOf P [] :=
  List.forall_mem_nil P

theorem eachOf_cons {P : Node → Prop} {node : Node} {rest : List Node} (hnode : node.Each P)
    (hrest : EachOf P rest) : EachOf P (node :: rest) :=
  (List.forall_mem_append (p := P)).2 ⟨hnode, hrest⟩

end Node

/-- What holds of all nodes of a meaning. -/
def Phrase.Each (P : Node → Prop) : (p : Phrase) → p.Meaning → Prop
  | .expr _, node => node.Each P
  | .tail _, grow => ∀ node : Node, node.Each P → (grow node).Each P
  | .trailers, grow => ∀ node : Node, node.Each P → (grow node).Each P
  | .elements _, nodes => Node.EachOf P nodes
  | .arguments, nodes => Node.EachOf P nodes
  | .bare, nodes => Node.EachOf P nodes
  | .statement, node => node.Each P
  | .statements, nodes => Node.EachOf P nodes
  | .block, node => node.Each P
  | .alternative, node? => ∀ node ∈ node?, Node.Each P node
  | .clause, node => node.Each P
  | .script, nodes => Node.EachOf P nodes

/-! ### Neighbours -/

/-- Whether a derivation of a phrase may start with an expression. -/
def Phrase.opensExpression : Phrase → Bool
  | .tail _ => false
  | .trailers => false
  | .arguments => false
  | .block => false
  | .alternative => false
  | .clause => false
  | _ => true

theorem sole_append {P : String → Prop} {before after : Option Item} {front rest : List Token} :
    Sole P before ((front ++ rest).map Token.item) after ↔
      Sole P before (front.map Token.item) ((rest.map Token.item).head?.or after) ∧
        Sole P ((front.map Token.item).getLast?.or before) (rest.map Token.item) after := by
  induction front generalizing before with
  | nil => simp [Sole]
  | cons token front ih =>
      rw [List.map_append] at ih
      simp only [List.cons_append, List.map_cons, List.map_append, Sole, ih, and_assoc,
        List.head?_append, Option.or_assoc, List.getLast?_cons]
      cases (front.map Token.item).getLast? <;> rfl

theorem isNumeral_operator {t : Tier} (op : Terminal t.item) :
    isNumeral (some op.token.item) = false := by
  obtain ⟨⟨op, hop⟩, line, column⟩ := op
  cases op <;> rfl

theorem isNumeral_endings (endings : List (Terminal Ending.item)) {before : Option Item}
    (h : isNumeral before = false) :
    isNumeral (((endings.map Terminal.token).map Token.item).getLast?.or before) = false := by
  rw [List.map_map, List.getLast?_map]
  cases endings.getLast? with
  | none => exact h
  | some ending => cases hvalue : ending.value <;> simp [Terminal.token, hvalue] <;> rfl

namespace Derivation

open Node

variable {P : String → Prop}

theorem not_isNumeral {p : Phrase} (d : Derivation p) (hp : p.opensExpression = false)
    {after : Option Item} (h : isNumeral after = false) :
    isNumeral ((d.yield.map Token.item).head?.or after) = false := by
  have hstarts := d.starts_yield
  rw [first, ← List.head?_map] at hstarts
  cases hhead : (d.yield.map Token.item).head? with
  | none => exact h
  | some item =>
      cases item with
      | number n =>
          rw [hhead] at hstarts
          cases p with
          | tail t => cases t <;> cases hstarts
          | trailers | arguments | block | alternative | clause => cases hstarts
          | _ => cases hp
      | _ => rfl

theorem not_isNumeral_append (d : Derivation .block) (rest : List Token) {after : Option Item} :
    isNumeral (((d.yield ++ rest).map Token.item).head?.or after) = false := by
  cases d
  rfl

theorem named_of_eq {node : Node} {below : List Node} (hnodes : node.nodes = node :: below)
    (hself : node.IsScripted) (hslot : node.slot? = none)
    (hbelow : ∀ part ∈ below, IsNamed P part) : node.Each (IsNamed P) :=
  each_of_eq hnodes ⟨hself, by simp [hslot]⟩ hbelow

theorem named_of_slot {node : Node} {below : List Node} {word : String}
    (hnodes : node.nodes = node :: below) (hself : node.IsScripted)
    (hslot : node.slot? = some (.word word)) (hword : P word)
    (hbelow : ∀ part ∈ below, IsNamed P part) : node.Each (IsNamed P) :=
  each_of_eq hnodes ⟨hself, by simp [hslot, hword]⟩ hbelow

theorem named_conditional {test body : Node} {otherwise : Option Node} {n : Nat}
    (htest : test.Each (IsNamed P)) (hbody : body.Each (IsNamed P))
    (hotherwise : ∀ node ∈ otherwise, node.Each (IsNamed P)) :
    (Node.conditional test body otherwise (.number n)).Each (IsNamed P) := by
  have hparts := List.forall_mem_append.2 ⟨htest, hbody⟩
  cases otherwise with
  | none => exact named_of_eq rfl (Exists.intro _ rfl) rfl hparts
  | some node =>
      exact named_of_eq rfl (Exists.intro _ rfl) rfl
        (List.forall_mem_append.2 ⟨hparts, hotherwise node rfl⟩)

theorem named_call (name : String) {args : List Node} {n : Nat}
    (hargs : EachOf (IsNamed P) args) :
    (Grammar.executorCall name args (.number n)).Each (IsNamed P) :=
  named_of_eq rfl (Exists.intro _ rfl) rfl (named_of_eq rfl (Exists.intro _ rfl) rfl hargs)

theorem each {p : Phrase} (d : Derivation p) {before after : Option Item}
    (hbefore : p.opensExpression = true → isNumeral before = false)
    (hafter : isNumeral after = false) (h : Sole P before (d.yield.map Token.item) after) :
    p.Each (IsNamed P) d.meaning := by
  -- on the tree; the neighbours are those of the part at hand, and the left one counts only for
  -- phrases that may start with an expression
  induction d generalizing before after with
  | chain first rest ihf ihr =>
      obtain ⟨hfirst, hrest⟩ := sole_append.1 h
      exact ihr nofun hafter hrest _ (ihf hbefore (rest.not_isNumeral rfl hafter) hfirst)
  | tailEnd => exact fun _ hleft => hleft
  | tailMore op operand rest iho ihr =>
      obtain ⟨hoperand, hrest⟩ := sole_append.1 h.2
      have hright := iho (fun _ => isNumeral_operator op) (rest.not_isNumeral rfl hafter) hoperand
      exact fun _ hleft => ihr nofun hafter hrest _ (named_of_eq rfl (Exists.intro _ rfl) rfl
        (List.forall_mem_append.2 ⟨hleft, hright⟩))
  | negation word operand ih =>
      exact named_of_eq rfl (Exists.intro _ rfl) rfl (ih (fun _ => rfl) hafter h.2)
  | positive inner ih => exact ih hbefore hafter h
  | sign op operand ih =>
      exact named_of_eq rfl (Exists.intro _ rfl) rfl
        (ih (fun _ => isNumeral_operator op) hafter h.2)
  | unsigned inner ih => exact ih hbefore hafter h
  | primary factor trailers ihf iht =>
      obtain ⟨hfactor, htrailers⟩ := sole_append.1 h
      exact iht nofun hafter htrailers _ (ihf hbefore (trailers.not_isNumeral rfl hafter) hfactor)
  | trailersEnd => exact fun _ hnode => hnode
  | member dot name rest ih =>
      exact fun _ hnode => ih nofun hafter h.2.2 _
        (named_of_eq rfl ⟨Exists.intro _ rfl, Exists.intro _ rfl⟩ rfl hnode)
  | index opening key closing rest ihk ihr =>
      obtain ⟨hkey, hrest⟩ := sole_append.1 h.2
      exact fun _ hnode => ihr nofun hafter hrest.2 _ (named_of_eq rfl (Exists.intro _ rfl) rfl
        (List.forall_mem_append.2 ⟨hnode, ihk (fun _ => rfl) rfl hkey⟩))
  | call args rest iha ihr =>
      obtain ⟨hargs, hrest⟩ := sole_append.1 h
      have hargs := iha nofun (rest.not_isNumeral rfl hafter) hargs
      exact fun _ hnode => ihr nofun hafter hrest _ (named_of_eq rfl (Exists.intro _ rfl) rfl
        (List.forall_mem_append.2 ⟨hnode, hargs⟩))
  | number | text | trueWord | falseWord | nullWord | leave | next =>
      exact named_of_eq rfl (Exists.intro _ rfl) rfl (by simp)
  | ident name =>
      -- a name that stands alone: both neighbours come from the phrases around it
      exact named_of_slot rfl (Exists.intro _ rfl) rfl (h.1 _ rfl (hbefore rfl) hafter) (by simp)
  | group opening inner closing ih => exact ih (fun _ => rfl) rfl (sole_append.1 h.2).1
  | list opening items closing ih =>
      exact named_of_eq rfl (Exists.intro _ rfl) rfl
        (ih (fun _ => rfl) rfl (sole_append.1 h.2).1)
  | reference role sigil name args ih =>
      exact named_of_eq rfl (Exists.intro _ rfl) rfl (ih nofun hafter h.2.2)
  | placeholder => exact named_of_eq rfl (Exists.intro _ rfl) rfl eachOf_nil
  | globalName =>
      exact named_of_eq rfl (Exists.intro _ rfl) rfl
        (named_of_eq rfl (Exists.intro _ rfl) rfl (by simp))
  | globalKey word opening key closing ih =>
      exact named_of_eq rfl (Exists.intro _ rfl) rfl
        (ih (fun _ => rfl) rfl (sole_append.1 h.2.2).1)
  | noElement | noStatement => exact eachOf_nil
  | lastElement head ih | lastBare head ih | lastStatement head ih =>
      exact eachOf_cons (ih hbefore hafter h) eachOf_nil
  | element head comma rest ihh ihr | bare head comma rest ihh ihr =>
      obtain ⟨hhead, hrest⟩ := sole_append.1 h
      exact eachOf_cons (ihh hbefore rfl hhead) (ihr (fun _ => rfl) hafter hrest.2)
  | arguments opening items closing ih => exact ih (fun _ => rfl) rfl (sole_append.1 h.2).1
  | declare word name =>
      exact named_of_slot rfl (Exists.intro _ rfl) rfl (h.2.1 _ rfl rfl hafter) (by simp)
  | define word name mark value ih =>
      exact named_of_slot rfl (Exists.intro _ rfl) rfl (h.2.1 _ rfl rfl rfl)
        (ih (fun _ => rfl) hafter h.2.2.2)
  | assign target mark value iht ihv =>
      obtain ⟨htarget, hvalue⟩ := sole_append.1 h
      exact named_of_eq rfl (Exists.intro _ rfl) rfl (List.forall_mem_append.2
        ⟨iht hbefore rfl htarget, ihv (fun _ => rfl) hafter hvalue.2⟩)
  | expression value ih => exact named_of_eq rfl (Exists.intro _ rfl) rfl (ih hbefore hafter h)
  | nested body ih => exact ih nofun hafter h
  | conditional word test body alt iht ihb iha | elif word test body alt iht ihb iha =>
      obtain ⟨htest, hrest⟩ := sole_append.1 h.2
      obtain ⟨hbody, halt⟩ := sole_append.1 hrest
      exact named_conditional (iht (fun _ => rfl) (body.not_isNumeral_append _) htest)
        (ihb nofun (alt.not_isNumeral rfl hafter) hbody) (iha nofun hafter halt)
  | elseIf word more test body alt iht ihb iha =>
      obtain ⟨htest, hrest⟩ := sole_append.1 h.2.2
      obtain ⟨hbody, halt⟩ := sole_append.1 hrest
      exact named_conditional (iht (fun _ => rfl) (body.not_isNumeral_append _) htest)
        (ihb nofun (alt.not_isNumeral rfl hafter) hbody) (iha nofun hafter halt)
  | repetition word test body iht ihb =>
      obtain ⟨htest, hbody⟩ := sole_append.1 h.2
      exact named_of_eq rfl (Exists.intro _ rfl) rfl (List.forall_mem_append.2
        ⟨iht (fun _ => rfl) (body.not_isNumeral rfl hafter) htest, ihb nofun hafter hbody⟩)
  | iteration word name among source body ihs ihb =>
      obtain ⟨hsource, hbody⟩ := sole_append.1 h.2.2.2
      exact named_of_slot rfl (Exists.intro _ rfl) rfl (h.2.1 _ rfl rfl rfl)
        (List.forall_mem_append.2
          ⟨ihs (fun _ => rfl) (body.not_isNumeral rfl hafter) hsource, ihb nofun hafter hbody⟩)
  | range word name among source dots bound body ihs ihn ihb =>
      obtain ⟨hsource, hrest⟩ := sole_append.1 h.2.2.2
      obtain ⟨hbound, hbody⟩ := sole_append.1 hrest.2
      have hends := List.forall_mem_append.2 ⟨ihs (fun _ => rfl) rfl hsource,
        ihn (fun _ => rfl) (body.not_isNumeral rfl hafter) hbound⟩
      exact named_of_slot rfl (Exists.intro _ rfl) rfl (h.2.1 _ rfl rfl rfl)
        (List.forall_mem_append.2 ⟨hends, ihb nofun hafter hbody⟩)
  | cooldown word what upTo seconds ih =>
      exact named_of_eq rfl (Exists.intro _ rfl) rfl (ih (fun _ => rfl) hafter h.2.2.2)
  | longCall | shortCall => exact named_call _ eachOf_nil
  | longCallWith word what name having args ih =>
      exact named_call _ (ih (fun _ => rfl) hafter h.2.2.2.2)
  | shortCallBare sigil name args ih =>
      obtain ⟨label, line, column⟩ := name
      exact named_call _ (ih (fun _ => by cases label <;> rfl) hafter h.2.2)
  | shortCallGroup sigil name args ih => exact named_call _ (ih nofun hafter h.2.2)
  | statement first ending endings rest ihf ihr =>
      obtain ⟨hfirst, hrest⟩ := sole_append.1 h
      obtain ⟨kind, line, column⟩ := ending
      have hending : isNumeral (some kind.item) = false := by cases kind <;> rfl
      exact eachOf_cons (ihf hbefore hending hfirst)
        (ihr (fun _ => isNumeral_endings endings hending) hafter (sole_append.1 hrest.2).2)
  | block opening endings body closing ih =>
      exact named_of_eq rfl (Exists.intro _ rfl) rfl (ih (fun _ => isNumeral_endings endings rfl) rfl
        (sole_append.1 (sole_append.1 h.2).2).1)
  | noClause => simp [Phrase.Each, meaning]
  | clause lines inner ih =>
      rintro _ ⟨⟩
      exact ih nofun hafter (sole_append.1 h).2
  | otherwise word body ih => exact ih nofun hafter h.2
  | script endings body ih =>
      exact ih (fun _ => isNumeral_endings endings (hbefore rfl)) hafter (sole_append.1 h).2

end Derivation

section Compiled

variable {file source : String} {program : Program} (h : compile file source = .ok program)

include h

theorem named_of_compile : Node.EachOf (Node.IsNamed IsVariable) program := by
  obtain ⟨d, stop, hstop, htape, -, rfl⟩ := exists_derivation_of_compile h
  have hfault : (tapeFrom (some file) .start 0 (lexemes source.toList)).fault = none :=
    congrArg Tape.fault htape
  have hsaid := said_eq_some_iff.2 ⟨hfault, congrArg Tape.items htape⟩
  have hsole : Sole IsVariable none ((d.yield ++ [stop]).map Token.item) none :=
    sole_of_said (tiles_lexemes source.toList) hsaid nofun
  refine d.each (fun _ => rfl) ?_ (sole_append.1 hsole).1
  cases hitem : stop.item <;> simp_all [Token.is, Item.is, Item.kind, isNumeral]

/-- **The nodes of compiled programs are as scripts have them.** -/
theorem scripted_of_compile : Node.EachOf Node.IsScripted program :=
  fun node hnode => (named_of_compile h node hnode).1

end Compiled

/-- **No variable is called like a word of the language.**  In a program that was compiled, what is
read, declared or counted with has a name of letters, digits and underscores that does not start
with a digit, and the name is no word of the language, although there are scripts among whose tokens
such a name occurs. -/
theorem variables_no_keyword :
    (∀ (file source : String) (program : Program), compile file source = .ok program →
      ∀ node ∈ Node.nodesOf program, ∀ name ∈ node.slot?,
        ∃ word, name = .word word ∧ IsName word ∧ ∀ k : Keyword, word ≠ k.text) ∧
    ∃ (source : String) (k : Keyword), (tape none source).fault = none ∧
      ∃ token ∈ (tape none source).tokens, token.item = .ident k.text := by
  refine ⟨fun file source program h node hnode => (named_of_compile h node hnode).2, ?_⟩
  exact ⟨"1true", .trueWord, rfl, ⟨.ident "true", 1, 2⟩, .tail _ (.head _), rfl⟩

-- A character of another alphabet takes more steps to classify than a plain one.
set_option maxRecDepth 4000 in
/-- A routine that is called like a word of the language, which stands right before a digit of
another alphabet: the variable that is passed to it is not called like one. -/
theorem variables_no_keyword_glued :
    ∃ program, compile "glued" "\x23to٣, x" = .ok program ∧
      ∀ node ∈ Node.nodesOf program, ∀ name ∈ node.slot?,
        ∃ word, name = .word word ∧ IsName word ∧ ∀ k : Keyword, word ≠ k.text := by
  have h : compile "glued" "\x23to٣, x" = .ok [Grammar.executorCall "to"
      [.literal .number (.int 3) (.number 1) 4, .ident "x" (.number 1)] (.number 1)] := by cbv
  exact ⟨_, h, variables_no_keyword.1 _ _ _ h⟩

end TriggerEngine
