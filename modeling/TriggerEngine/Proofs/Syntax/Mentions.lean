/-
**What a program mentions.**

The index of a program has one entry for each name of the host that occurs in it.  It is collected
from the references that the nodes of the program make, and says of each name how often it is used
and where for the first time.

The references come in the order of the script, since every production puts the parts of a node in
the order of their tokens: so the first reference to a name is also the one in the earliest line.
The line of a reference is that of its first token.  What it starts with is a sigil and a name, a
call in words, or a global with a name or with a key that is a text, in parentheses or not.

Main definitions:

* `Reference.StartsWith`, `MadeIn` — the tokens that references are made with, one behind the other;
* `Node.reference?` — what a node names of the host;
* `Mention.place` — where a mention stands in the order of mentions;
* `Mention.Tally` — what the mentions of a row of references are.

Main results:

* `Derivation.referIn` — **references are made in the order of the tokens**;
* `Mention.Tally.note`, `Mention.gather_tally` — counting references, one at a time and all;
* `Mention.pairwise_sorted` — mentions are sorted without ties;
* `collect_exact` — **the index of a program is exact**.
-/

import TriggerEngine.Index
import TriggerEngine.Proofs.Syntax.Coverage
import TriggerEngine.Proofs.Token.Placement

set_option autoImplicit false

namespace TriggerEngine

/-! ### References in tokens -/

/-- Whether a reference starts with a row of tokens: a sigil and a name, a call in words, or a
global with a name or with a key that is a text. -/
inductive Reference.StartsWith : Reference → List Token → Prop where
  | sigil (role : Role) (sigil : Punct role.mark) (name : Terminal Label.item) :
      StartsWith ⟨role.referenceKind, .word name.value.text, sigil.line⟩ [sigil.token, name.token]
  | call (word : Word .callWord) (what : Word .executorWord) (name : Terminal Item.string) :
      StartsWith ⟨.executor, .word name.value, word.line⟩ [word.token, what.token, name.token]
  | globalName (word : Word .globalWord) (dot : Punct .dot) (name : Terminal Label.item) :
      StartsWith ⟨.global, .word name.value.text, word.line⟩ [word.token, dot.token, name.token]
  | globalKey (word : Word .globalWord) (opening : Punct .lbracket) {key : Derivation .expression}
      {text : String} {line : Line} {tag : Nat}
      (hkey : key.meaning = .literal .string (.str text) line tag) :
      StartsWith ⟨.global, .word text, word.line⟩ (word.token :: opening.token :: key.yield)

theorem Reference.StartsWith.exists_line {r : Reference} {front : List Token}
    (h : r.StartsWith front) : ∃ token ∈ front, (token.line : Int) = r.line := by
  cases h <;> exact ⟨_, List.mem_cons_self, rfl⟩

/-- Whether references are made in a row of tokens, one behind the other. -/
inductive MadeIn : List Reference → List Token → Prop where
  | nil : MadeIn [] []
  | skip {references : List Reference} {tokens : List Token} (token : Token)
      (h : MadeIn references tokens) : MadeIn references (token :: tokens)
  | start {r : Reference} {references : List Reference} {front tokens : List Token}
      (hfront : r.StartsWith front) (h : MadeIn references tokens) :
      MadeIn (r :: references) (front ++ tokens)

namespace MadeIn

variable {references others : List Reference} {tokens behind : List Token}

theorem none (tokens : List Token) : MadeIn [] tokens := by
  induction tokens with
  | nil => exact .nil
  | cons token tokens ih => exact .skip token ih

theorem append (h : MadeIn references tokens) (h' : MadeIn others behind) :
    MadeIn (references ++ others) (tokens ++ behind) := by
  induction h with
  | nil => exact h'
  | skip token h ih => exact .skip token ih
  | start hfront h ih =>
      rw [List.append_assoc]
      exact .start hfront ih

theorem after (front : List Token) (h : MadeIn references tokens) :
    MadeIn references (front ++ tokens) :=
  (none front).append h

theorem before (h : MadeIn references tokens) (behind : List Token) :
    MadeIn references (tokens ++ behind) := by
  simpa using h.append (none behind)

theorem exists_line (h : MadeIn references tokens) :
    ∀ r ∈ references, ∃ token ∈ tokens, (token.line : Int) = r.line := by
  induction h with
  | nil => simp
  | skip token h ih =>
      intro r hr
      obtain ⟨t, ht, hline⟩ := ih r hr
      exact ⟨t, .tail _ ht, hline⟩
  | start hfront h ih =>
      simp only [List.mem_append, or_and_right, exists_or]
      exact List.forall_mem_cons.2 ⟨.inl hfront.exists_line, fun r hr => .inr (ih r hr)⟩

theorem pairwise (h : MadeIn references tokens)
    (htokens : tokens.Pairwise fun t u => t.line ≤ u.line) :
    references.Pairwise fun r r' => r.line ≤ r'.line := by
  induction h with
  | nil => exact .nil
  | skip token h ih => exact ih htokens.of_cons
  | start hfront h ih =>
      obtain ⟨-, hbehind, hcross⟩ := List.pairwise_append.1 htokens
      refine .cons (fun r hr => ?_) (ih hbehind)
      obtain ⟨t, ht, hline⟩ := hfront.exists_line
      obtain ⟨t', ht', hline'⟩ := h.exists_line r hr
      have := hcross t ht t' ht'
      omega

end MadeIn

/-! ### References of a derivation -/

namespace Node

/-- What a node names of the host: a routine, or a global with a key that is a text. -/
def reference? : Node → Option Reference
  | .reference role (.word name) _ (.number n) => some ⟨role.referenceKind, .word name, n⟩
  | .global (.literal .string (.str name) _ _) (.number n) => some ⟨.global, .word name, n⟩
  | _ => none

/-- Whether a node names something of the host, or nothing, and its shape shows it. -/
def Refers (node : Node) (r? : Option Reference) : Prop :=
  node.reference? = r? ∧ node.toShape.reference? = r?

/-- Whether the references of nodes can be read off their shapes and are made in a row of tokens. -/
structure ReferIn (nodes : List Node) (tokens : List Token) : Prop where
  shown : nodes.filterMap (fun node => node.toShape.reference?) = nodes.filterMap reference?
  made : MadeIn (nodes.filterMap reference?) tokens

namespace ReferIn

variable {tokens behind : List Token} {node : Node} {inner nodes : List Node}

theorem none (tokens : List Token) : ReferIn [] tokens :=
  ⟨rfl, .none tokens⟩

theorem both (h : ReferIn nodes tokens) (h' : ReferIn inner behind) :
    ReferIn (nodes ++ inner) (tokens ++ behind) := by
  constructor
  · rw [List.filterMap_append, List.filterMap_append, h.shown, h'.shown]
  · rw [List.filterMap_append]
    exact h.made.append h'.made

theorem skip (token : Token) (h : ReferIn nodes tokens) : ReferIn nodes (token :: tokens) :=
  ⟨h.shown, .skip token h.made⟩

theorem after (front : List Token) (h : ReferIn nodes tokens) : ReferIn nodes (front ++ tokens) :=
  ⟨h.shown, h.made.after front⟩

theorem before (h : ReferIn nodes tokens) (behind : List Token) :
    ReferIn nodes (tokens ++ behind) :=
  ⟨h.shown, h.made.before behind⟩

theorem single (h : ReferIn node.nodes tokens) : ReferIn (nodesOf [node]) tokens := by
  simpa [nodesOf] using h

theorem of (hnodes : node.nodes = node :: inner) (hself : node.Refers Option.none)
    (h : ReferIn inner tokens) : ReferIn node.nodes tokens := by
  rw [hnodes]
  constructor
  · simp only [List.filterMap_cons, hself.1, hself.2, h.shown]
  · simpa only [List.filterMap_cons, hself.1] using h.made

theorem refer {r : Reference} {front : List Token} (hfront : r.StartsWith front)
    (hnodes : node.nodes = node :: inner) (hself : node.Refers (some r))
    (h : ReferIn inner tokens) : ReferIn node.nodes (front ++ tokens) := by
  rw [hnodes]
  constructor
  · simp only [List.filterMap_cons, hself.1, hself.2, h.shown]
  · simpa only [List.filterMap_cons, hself.1] using .start hfront h.made

theorem conditional {test body : Node} {otherwise : Option Node} {line : Line}
    {tests bodies others : List Token} (htest : ReferIn test.nodes tests)
    (hbody : ReferIn body.nodes bodies) (hotherwise : ReferIn (nodesOf otherwise.toList) others) :
    ReferIn (Node.conditional test body otherwise line).nodes (tests ++ (bodies ++ others)) := by
  rw [← List.append_assoc]
  cases otherwise with
  | none => exact (of rfl ⟨rfl, rfl⟩ (htest.both hbody)).before others
  | some node =>
      rw [Option.toList, nodesOf, nodesOf, List.append_nil] at hotherwise
      exact of rfl ⟨rfl, rfl⟩ ((htest.both hbody).both hotherwise)

theorem executorCall {name : String} {n : Nat} {front : List Token} {args : List Node}
    (hfront : Reference.StartsWith ⟨.executor, .word name, n⟩ front)
    (hargs : ReferIn (nodesOf args) tokens) :
    ReferIn (Grammar.executorCall name args (.number n)).nodes (front ++ tokens) :=
  of rfl ⟨rfl, rfl⟩ (refer hfront rfl ⟨rfl, rfl⟩ hargs)

end ReferIn

/-- Whether what grows around a node adds references that are made in a row of tokens. -/
def GrowIn (grow : Node → Node) (tokens : List Token) : Prop :=
  ∀ (node : Node) (front : List Token), ReferIn node.nodes front →
    ReferIn (grow node).nodes (front ++ tokens)

namespace GrowIn

variable {grow wrap : Node → Node} {tokens behind : List Token}

theorem skip (token : Token) (hgrow : GrowIn grow tokens) : GrowIn grow (token :: tokens) :=
  fun node front h => by simpa using hgrow node (front ++ [token]) (h.before [token])

theorem step (hgrow : GrowIn grow behind) (hwrap : GrowIn wrap tokens) :
    GrowIn (fun node => grow (wrap node)) (tokens ++ behind) :=
  fun node front h => by simpa using hgrow _ _ (hwrap node front h)

end GrowIn

/-- Whether a node names a global as its key only if it is a text. -/
def IsKey (node : Node) : Prop :=
  (∀ line, (Node.global node line).Refers none) ∨
    ∃ text line tag, node = .literal .string (.str text) line tag

end Node

/-- Whether the references of a meaning are made in a row of tokens. -/
def Phrase.ReferIn : (p : Phrase) → p.Meaning → List Token → Prop
  | .expr _, node => Node.ReferIn node.nodes
  | .tail _, grow => Node.GrowIn grow
  | .trailers, grow => Node.GrowIn grow
  | .elements _, nodes => Node.ReferIn (Node.nodesOf nodes)
  | .arguments, nodes => Node.ReferIn (Node.nodesOf nodes)
  | .bare, nodes => Node.ReferIn (Node.nodesOf nodes)
  | .statement, node => Node.ReferIn node.nodes
  | .statements, nodes => Node.ReferIn (Node.nodesOf nodes)
  | .block, node => Node.ReferIn node.nodes
  | .alternative, node? => Node.ReferIn (Node.nodesOf node?.toList)
  | .clause, node => Node.ReferIn node.nodes
  | .script, nodes => Node.ReferIn (Node.nodesOf nodes)

/-- Whether a meaning, if it is an expression, names a global as its key only if it is a text. -/
def Phrase.IsKey : (p : Phrase) → p.Meaning → Prop
  | .expr _, node => node.IsKey
  | .tail _, grow => ∀ node : Node, node.IsKey → (grow node).IsKey
  | .trailers, grow => ∀ node : Node, node.IsKey → (grow node).IsKey
  | _, _ => True

namespace Derivation

open Node

theorem isKey {p : Phrase} (d : Derivation p) : p.IsKey d.meaning := by
  induction d with
  | chain first rest ihf ihr | primary first rest ihf ihr => exact ihr _ ihf
  | tailEnd | trailersEnd => exact fun _ h => h
  | tailMore op operand rest iho ihr =>
      obtain ⟨⟨op, -⟩, line, column⟩ := op
      exact fun _ _ => ihr _ (.inl fun _ => by cases op <;> exact ⟨rfl, rfl⟩)
  | member dot name rest ih => exact fun _ _ => ih _ (.inl fun _ => ⟨rfl, rfl⟩)
  | index opening key closing rest ihk ihr => exact fun _ _ => ihr _ (.inl fun _ => ⟨rfl, rfl⟩)
  | call args rest iha ihr => exact fun _ _ => ihr _ (.inl fun _ => ⟨rfl, rfl⟩)
  | positive inner ih | unsigned inner ih | group opening inner closing ih => exact ih
  | text mark => exact .inr ⟨_, _, _, rfl⟩
  | reference role sigil name args ih => exact .inl fun _ => by cases role <;> exact ⟨rfl, rfl⟩
  | _ => first | exact .inl fun _ => ⟨rfl, rfl⟩ | trivial

theorem referIn_globalKey (word : Word .globalWord) (opening : Punct .lbracket)
    (key : Derivation .expression) (closing : Punct .rbracket)
    (h : ReferIn key.meaning.nodes key.yield) :
    ReferIn (Node.global key.meaning word.line).nodes
      (word.token :: opening.token :: (key.yield ++ [closing.token])) := by
  rcases key.isKey with hnone | ⟨text, line, tag, hkey⟩
  · exact .of rfl (hnone _) (.after [_, _] (h.before _))
  · refine .refer (.globalKey word opening hkey) rfl ?_ ?_
    · rw [hkey]
      exact ⟨rfl, rfl⟩
    · rw [hkey]
      exact .of rfl ⟨rfl, rfl⟩ (.none _)

/-- **References are made in the order of the tokens.** -/
theorem referIn {p : Phrase} (d : Derivation p) : p.ReferIn d.meaning d.yield := by
  induction d with
  | chain first rest ihf ihr | primary first rest ihf ihr => exact ihr _ _ ihf
  | tailEnd | trailersEnd => exact fun _ _ h => h.before []
  | tailMore op operand rest iho ihr =>
      obtain ⟨⟨op, -⟩, line, column⟩ := op
      exact ihr.step fun _ _ h => .of rfl (by cases op <;> exact ⟨rfl, rfl⟩) (h.both (iho.skip _))
  | negation word operand ih | sign op operand ih => exact .skip _ (.of rfl ⟨rfl, rfl⟩ ih)
  | positive inner ih | unsigned inner ih | nested inner ih => exact ih
  | member dot name rest ih =>
      exact (ih.skip _).step fun _ _ h => .of rfl ⟨rfl, rfl⟩ (h.before [dot.token])
  | index opening key closing rest ihk ihr =>
      exact (ihr.skip _).step fun _ _ h => .of rfl ⟨rfl, rfl⟩ (h.both (ihk.skip _))
  | call args rest iha ihr => exact ihr.step fun _ _ h => .of rfl ⟨rfl, rfl⟩ (h.both iha)
  | number | text | trueWord | falseWord | nullWord | ident | leave | next | declare =>
      exact .of rfl ⟨rfl, rfl⟩ (.none _)
  | group opening inner closing ih | arguments opening inner closing ih =>
      exact .skip _ (ih.before _)
  | list opening items closing ih => exact .of rfl ⟨rfl, rfl⟩ (.skip _ (ih.before _))
  | reference role sigil name args ih =>
      exact .refer (.sigil role sigil name) rfl (by cases role <;> exact ⟨rfl, rfl⟩) ih
  | placeholder sigil name =>
      exact .refer (.sigil .placeholder sigil name) rfl ⟨rfl, rfl⟩ (.none [])
  | globalName word dot name =>
      exact .refer (.globalName word dot name) rfl ⟨rfl, rfl⟩ (.of rfl ⟨rfl, rfl⟩ (.none []))
  | globalKey word opening key closing ih => exact referIn_globalKey word opening key closing ih
  | noElement | noStatement | noClause => exact .none []
  | lastElement head ih | lastBare head ih | lastStatement head ih => exact ih.single
  | element head comma rest ihh ihr | bare head comma rest ihh ihr => exact ihh.both (ihr.skip _)
  | define word name mark value ih => exact .of rfl ⟨rfl, rfl⟩ (.after [_, _, _] ih)
  | assign target mark value iht ihv => exact .of rfl ⟨rfl, rfl⟩ (iht.both (ihv.skip _))
  | expression value ih => exact .of rfl ⟨rfl, rfl⟩ ih
  | conditional word test body alt iht ihb iha | elif word test body alt iht ihb iha =>
      exact .skip _ (.conditional iht ihb iha)
  | elseIf word more test body alt iht ihb iha =>
      exact .after [_, _] (.conditional iht ihb iha)
  | repetition word test body iht ihb => exact .skip _ (.of rfl ⟨rfl, rfl⟩ (iht.both ihb))
  | iteration word name among source body ihs ihb =>
      exact .after [_, _, _] (.of rfl ⟨rfl, rfl⟩ (ihs.both ihb))
  | range word name among source dots bound body ihs ihn ihb =>
      refine .after [_, _, _] (.of ?_ ⟨rfl, rfl⟩ (ihs.both (.skip _ (ihn.both ihb))))
      exact congrArg _ (List.append_assoc _ _ _)
  | cooldown word what upTo seconds ih => exact .of rfl ⟨rfl, rfl⟩ (.after [_, _, _] ih)
  | longCall word what name => exact .executorCall (.call word what name) (.none [])
  | longCallWith word what name having args ih =>
      exact .executorCall (.call word what name) (ih.skip _)
  | shortCall sigil name => exact .executorCall (.sigil .executor sigil name) (.none [])
  | shortCallBare sigil name args ih | shortCallGroup sigil name args ih =>
      exact .executorCall (.sigil .executor sigil name) ih
  | statement first ending endings rest ihf ihr =>
      exact ihf.both (.skip _ (.after _ ihr))
  | block opening endings body closing ih =>
      exact .of rfl ⟨rfl, rfl⟩ (.skip _ (.after _ (ih.before _)))
  | clause lines inner ih => exact .after _ ih.single
  | otherwise word body ih => exact .skip _ ih
  | script endings body ih => exact .after _ ih

end Derivation

/-! ### Counting references -/

/-- What references of one name have in common. -/
def Reference.key (r : Reference) : ReferenceKind × String :=
  (r.kind, r.name.display)

namespace Mention

/-- What is mentioned. -/
def key (m : Mention) : ReferenceKind × String :=
  (m.kind, m.name)

/-- Where a mention stands in the order: by its line, then by the name of its kind, then by its
name. -/
def place (m : Mention) : ℤ ×ₗ String ×ₗ String :=
  toLex (m.line, toLex (m.kind.name, m.name))

/-- Whether mentions are what references come to: one for each name, with the number of its uses and
the first of their lines. -/
structure Tally (references : List Reference) (mentions : List Mention) : Prop where
  single : (mentions.map key).Nodup
  named : ∀ name, name ∈ mentions.map key ↔ name ∈ references.map Reference.key
  uses : ∀ m ∈ mentions, m.uses = (references.map Reference.key).count m.key
  first : ∀ m ∈ mentions, IsLeast {n | ∃ r ∈ references, r.key = m.key ∧ n = r.line - 1} m.line
  total : (mentions.map Mention.uses).sum = references.length

theorem note_eq (r : Reference) (mentions : List Mention) :
    (∃ front m rest, mentions = front ++ m :: rest ∧ m.key = r.key ∧
      note r mentions = front ++ { m with uses := m.uses + 1 } :: rest) ∨
    (r.key ∉ mentions.map key ∧
      note r mentions = mentions ++ [⟨r.kind, r.name.display, r.line - 1, 1⟩]) := by
  induction mentions with
  | nil => exact .inr ⟨by simp, rfl⟩
  | cons m rest ih =>
      by_cases hm : m.key = r.key
      · exact .inl ⟨[], m, rest, rfl, hm, if_pos (Prod.mk.inj hm)⟩
      · have hnote : note r (m :: rest) = m :: note r rest :=
          if_neg fun h => hm (Prod.ext h.1 h.2)
        rcases ih with ⟨front, m', rest', rfl, hkey, heq⟩ | ⟨hnew, heq⟩
        · exact .inl ⟨m :: front, m', rest', rfl, hkey, by rw [hnote, heq]; rfl⟩
        · refine .inr ⟨?_, by rw [hnote, heq]; rfl⟩
          rw [List.map_cons, List.mem_cons, not_or]
          exact ⟨Ne.symm hm, hnew⟩

section Note

variable {references : List Reference} {mentions : List Mention} {r : Reference}

theorem isLeast_append {m : Mention} (hr : ∀ r' ∈ references, r'.line ≤ r.line)
    (h : IsLeast {n | ∃ r ∈ references, r.key = m.key ∧ n = r.line - 1} m.line) :
    IsLeast {n | ∃ r' ∈ references ++ [r], r'.key = m.key ∧ n = r'.line - 1} m.line := by
  obtain ⟨⟨r₀, hr₀, hkey, hline⟩, hleast⟩ := h
  refine ⟨⟨r₀, List.mem_append_left _ hr₀, hkey, hline⟩, ?_⟩
  rintro n ⟨r', hr', hkey', rfl⟩
  rcases List.mem_append.1 hr' with hr' | hr'
  · exact hleast ⟨r', hr', hkey', rfl⟩
  · obtain rfl := List.mem_singleton.1 hr'
    have := hr r₀ hr₀
    omega

theorem count_key_append (references : List Reference) (r : Reference)
    (k : ReferenceKind × String) :
    ((references ++ [r]).map Reference.key).count k =
      (references.map Reference.key).count k + if r.key = k then 1 else 0 := by
  simp [List.count_singleton]

theorem Tally.again {m : Mention} (h : Tally references (m :: mentions)) (hkey : m.key = r.key)
    (hr : ∀ r' ∈ references, r'.line ≤ r.line) :
    Tally (references ++ [r]) ({ m with uses := m.uses + 1 } :: mentions) := by
  have hothers : ∀ m' ∈ mentions, r.key ≠ m'.key := fun m' hm' heq =>
    (List.nodup_cons.1 h.single).1 (hkey ▸ heq ▸ List.mem_map_of_mem hm')
  refine ⟨h.single, fun k => ?_, List.forall_mem_cons.2 ⟨?_, fun m' hm' => ?_⟩,
    List.forall_mem_cons.2 ⟨?_, fun m' hm' => ?_⟩, ?_⟩
  · rw [List.map_append, List.mem_append, ← h.named]
    refine ⟨.inl, fun hk => hk.elim id fun hk => ?_⟩
    rw [List.mem_singleton.1 hk, ← hkey]
    exact List.mem_cons_self
  · show m.uses + 1 = ((references ++ [r]).map Reference.key).count m.key
    rw [count_key_append, if_pos hkey.symm, h.uses m List.mem_cons_self]
  · rw [count_key_append, if_neg (hothers m' hm')]
    exact h.uses m' (.tail _ hm')
  · exact isLeast_append hr (h.first m List.mem_cons_self)
  · exact isLeast_append hr (h.first m' (.tail _ hm'))
  · have htotal := h.total
    simp only [List.map_cons, List.sum_cons, List.length_append, List.length_singleton] at htotal ⊢
    omega

theorem Tally.anew (h : Tally references mentions) (hnew : r.key ∉ mentions.map key)
    (hr : ∀ r' ∈ references, r'.line ≤ r.line) :
    Tally (references ++ [r]) (⟨r.kind, r.name.display, r.line - 1, 1⟩ :: mentions) := by
  have habsent : r.key ∉ references.map Reference.key := fun hmem => hnew ((h.named _).2 hmem)
  refine ⟨List.nodup_cons.2 ⟨hnew, h.single⟩, fun k => ?_,
    List.forall_mem_cons.2 ⟨?_, fun m' hm' => ?_⟩,
    List.forall_mem_cons.2 ⟨?_, fun m' hm' => isLeast_append hr (h.first m' hm')⟩, ?_⟩
  · rw [List.map_append, List.mem_append, ← h.named, List.map_cons, List.mem_cons, or_comm]
    exact or_congr_right List.mem_singleton.symm
  · show 1 = ((references ++ [r]).map Reference.key).count r.key
    rw [count_key_append, if_pos rfl, List.count_eq_zero.2 habsent]
  · have hother : r.key ≠ m'.key := fun heq => hnew (heq ▸ List.mem_map_of_mem hm')
    rw [count_key_append, if_neg hother]
    exact h.uses m' hm'
  · refine ⟨⟨r, List.mem_append_right _ List.mem_cons_self, rfl, rfl⟩, ?_⟩
    rintro n ⟨r', hr', hkey', rfl⟩
    have hkey' : r'.key = r.key := hkey'
    rcases List.mem_append.1 hr' with hr' | hr'
    · exact absurd (hkey' ▸ List.mem_map_of_mem hr') habsent
    · rw [List.mem_singleton.1 hr']
  · simp only [List.map_cons, List.sum_cons, List.length_append, List.length_singleton, h.total]
    omega

theorem Tally.perm {references : List Reference} {mentions sorted : List Mention}
    (h : Tally references mentions) (hperm : sorted.Perm mentions) : Tally references sorted where
  single := ((hperm.map key).nodup_iff).2 h.single
  named name := (hperm.map key).mem_iff.trans (h.named name)
  uses m hm := h.uses m (hperm.mem_iff.1 hm)
  first m hm := h.first m (hperm.mem_iff.1 hm)
  total := (hperm.map _).sum_eq.trans h.total

theorem Tally.note (h : Tally references mentions) (hr : ∀ r' ∈ references, r'.line ≤ r.line) :
    Tally (references ++ [r]) (Mention.note r mentions) := by
  rcases note_eq r mentions with ⟨front, m, rest, rfl, hkey, heq⟩ | ⟨hnew, heq⟩
  · rw [heq]
    exact ((h.perm List.perm_middle.symm).again hkey hr).perm List.perm_middle
  · rw [heq]
    exact (h.anew hnew hr).perm List.perm_append_comm

end Note

theorem gather_tally {references : List Reference}
    (h : references.Pairwise fun r r' => r.line ≤ r'.line) :
    Tally references (gather references) := by
  induction references using List.reverseRecOn with
  | nil => exact ⟨.nil, fun _ => .rfl, by simp [gather], by simp [gather], rfl⟩
  | append_singleton references r ih =>
      obtain ⟨hfront, -, hlast⟩ := List.pairwise_append.1 h
      rw [gather, List.foldl_append]
      exact (ih hfront).note fun r' hr' => hlast r' hr' r List.mem_cons_self

/-! ### Sorting mentions -/

theorem ReferenceKind.name_injective : Function.Injective ReferenceKind.name := by
  intro a b h
  cases a <;> cases b <;> first | rfl | exact absurd h (by decide)

theorem isBefore_iff (a b : Mention) : a.isBefore b = true ↔ a.place ≤ b.place := by
  simp only [isBefore, place, Prod.Lex.toLex_le_toLex]
  by_cases hline : a.line = b.line
  · by_cases hkind : a.kind = b.kind
    · simp [hline, hkind]
    · have hname : a.kind.name ≠ b.kind.name := fun h => hkind (ReferenceKind.name_injective h)
      simp [hline, hkind, hname, le_iff_lt_or_eq]
  · simp [hline, le_iff_lt_or_eq]

theorem key_eq_of_place {a b : Mention} (h : a.place = b.place) : a.key = b.key := by
  simp only [place, toLex_inj, Prod.mk.injEq] at h
  exact Prod.ext (ReferenceKind.name_injective h.2.1) h.2.2

theorem pairwise_sorted {mentions : List Mention} (h : (mentions.map key).Nodup) :
    (mentions.mergeSort isBefore).Pairwise fun a b => a.place < b.place := by
  have hle : (mentions.mergeSort isBefore).Pairwise fun a b => a.isBefore b = true :=
    List.pairwise_mergeSort (fun a b c => by simpa only [isBefore_iff] using le_trans)
      (fun a b => by simpa only [Bool.or_eq_true, isBefore_iff] using le_total _ _) mentions
  have hne : ((mentions.mergeSort isBefore).map key).Nodup :=
    (((mentions.mergeSort_perm isBefore).map key).nodup_iff).2 h
  refine (hle.and (List.pairwise_map.1 hne)).imp fun {a b} hab => ?_
  exact lt_of_le_of_ne ((isBefore_iff a b).1 hab.1) fun heq => hab.2 (key_eq_of_place heq)

end Mention

/-! ### The index of a script -/

theorem tape_lines (file : Option String) (source : String) :
    (tape file source).tokens.Pairwise fun t u => t.line ≤ u.line :=
  (tapeFrom_pairwise fun l hl => ((tiles_lexemes _).spelled l hl).ne_nil).imp
    fun hbefore => hbefore.elim Nat.le_of_lt fun h => h.1.le

/-- **The index of a program is exact.**  Who goes through a program that was compiled finds each
node of its tree once, before those below it.  The references of the program are what its nodes name
of the host, and are made in the order of its tokens, so that their lines do not go back.  There is
one mention for each name among them, with the number of its uses and the first of its lines, and
the mentions come in the order of their lines, kinds and names without ties. -/
theorem collect_exact (file source : String) (program : Program)
    (h : compile file source = .ok program) :
    program.toShape.walk = (Node.nodesOf program).map Node.toShape ∧
      program.toShape.references = (Node.nodesOf program).filterMap Node.reference? ∧
      MadeIn program.toShape.references (tape (some file) source).tokens ∧
      (program.toShape.references.Pairwise fun r r' => r.line ≤ r'.line) ∧
      Mention.Tally program.toShape.references (Mention.collect program) ∧
      (Mention.collect program).Pairwise fun a b => a.place < b.place := by
  have hwalk := Program.walk_eq (scripted_of_compile h)
  have hrefer : Node.ReferIn (Node.nodesOf program) (tape (some file) source).tokens := by
    obtain ⟨d, stop, -, htape, -, rfl⟩ := exists_derivation_of_compile h
    rw [htape]
    exact Node.ReferIn.before d.referIn [stop]
  have hreferences :
      program.toShape.references = (Node.nodesOf program).filterMap Node.reference? := by
    rw [Shape.references, hwalk, List.filterMap_map]
    exact hrefer.shown
  have hmade := hreferences ▸ hrefer.made
  have hlines := hmade.pairwise (tape_lines (some file) source)
  have htally := Mention.gather_tally hlines
  exact ⟨hwalk, hreferences, hmade, hlines, htally.perm (List.mergeSort_perm _ _),
    Mention.pairwise_sorted htally.single⟩

/-- A script that uses an executor twice. -/
theorem collect_exact_twice :
    ∃ program, compile "twice" "\x23hi(global[(\"x\")])\n@ok(\x23hi())" = .ok program ∧
      Mention.collect program =
        [⟨.executor, "hi", 0, 2⟩, ⟨.global, "x", 0, 1⟩, ⟨.condition, "ok", 1, 1⟩] ∧
      Mention.Tally program.toShape.references (Mention.collect program) := by
  have h : compile "twice" "\x23hi(global[(\"x\")])\n@ok(\x23hi())" = .ok
      [Grammar.executorCall "hi" [.global (.literal .string (.str "x") (.number 1) 13) (.number 1)]
        (.number 1),
        .expression (.reference .condition "ok" [.reference .executor "hi" [] (.number 2)]
          (.number 2)) (.number 2)] := by cbv
  exact ⟨_, h, by cbv, (collect_exact _ _ _ h).2.2.2.2.1⟩

end TriggerEngine
