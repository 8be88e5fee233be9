/-
**Conditionals take the first case that applies.**

A conditional with several cases is read as nested conditionals: each further case is the
alternative of the one before it.  A run goes through the nesting from the outside in.  It evaluates
the test of a case only if the tests of all cases before it were evaluated and did not hold; it
executes the block of the first case whose test holds, or the block behind the last case, and visits
nothing of the others.  The nesting is one of the tree alone: all tests are evaluated, and the block
is started, at the depth at which the conditional stands.

Main definitions:

* `Node.cases`, `Node.fallback?`, `Derivation.cases`, `Derivation.fallback?` — the cases of a
  conditional and what stands behind them, in the tree and as they are written;
* `Exec.Arrives`, `Exec.Hindered` — how a run comes to a case, and how it is stopped on the way;
* `Exec.TakesFirst` — what a conditional does.

Main results:

* `Derivation.cases_meaning` — the cases of the tree are the ones that are written;
* `Exec.Arrives.runFrom`, `Exec.Arrives.depth` — a run that came to a case goes on from there;
* `Exec.takesFirst` — a conditional takes the first case that applies;
* `conditional_first_match` — **so does every conditional of a script**.
-/

import TriggerEngine.Proofs.Run.Lifecycle
import TriggerEngine.Proofs.Syntax.Correctness

set_option autoImplicit false

namespace TriggerEngine

variable {ω τ : Type}

/-! ### Cases -/

/-- The cases of a conditional in order, each with its test and its block. -/
def Node.cases : Node → List (Node × Node)
  | .conditional test body none _ => [(test, body)]
  | .conditional test body (some otherwise) _ => (test, body) :: otherwise.cases
  | _ => []

/-- The block behind the last case of a conditional, if there is one. -/
def Node.fallback? : Node → Option Node
  | .conditional _ _ none _ => none
  | .conditional _ _ (some otherwise) _ => otherwise.fallback?
  | node => some node

namespace Derivation

/-- The cases of a conditional as they are written, each with the meaning of its test and its block.
It makes no difference whether a further case starts with `elif` or with `else if`, and in which
line. -/
def cases : {p : Phrase} → Derivation p → List (Node × Node)
  | _, .conditional _ test body alt => (test.meaning, body.meaning) :: alt.cases
  | _, .clause _ inner => inner.cases
  | _, .elif _ test body alt => (test.meaning, body.meaning) :: alt.cases
  | _, .elseIf _ _ test body alt => (test.meaning, body.meaning) :: alt.cases
  | _, _ => []

/-- The meaning of the block that stands behind `else`. -/
def fallback? : {p : Phrase} → Derivation p → Option Node
  | _, .conditional _ _ _ alt => alt.fallback?
  | _, .clause _ inner => inner.fallback?
  | _, .elif _ _ _ alt => alt.fallback?
  | _, .elseIf _ _ _ _ alt => alt.fallback?
  | _, .otherwise _ body => some body.meaning
  | _, _ => none

theorem cases_clause : ∀ d : Derivation .clause,
    d.meaning.cases = d.cases ∧ d.meaning.fallback? = d.fallback?
  | .elif _ _ _ .noClause => ⟨rfl, rfl⟩
  | .elif _ _ _ (.clause _ inner) => ⟨congrArg _ (cases_clause inner).1, (cases_clause inner).2⟩
  | .elseIf _ _ _ _ .noClause => ⟨rfl, rfl⟩
  | .elseIf _ _ _ _ (.clause _ inner) =>
      ⟨congrArg _ (cases_clause inner).1, (cases_clause inner).2⟩
  | .otherwise _ (.block _ _ _ _) => ⟨rfl, rfl⟩

theorem cases_meaning (word : Word .ifWord) (test : Derivation .expression)
    (body : Derivation .block) (alt : Derivation .alternative) :
    (conditional word test body alt).meaning.cases = (conditional word test body alt).cases ∧
      (conditional word test body alt).meaning.fallback? =
        (conditional word test body alt).fallback? := by
  cases alt with
  | noClause => exact ⟨rfl, rfl⟩
  | clause lines inner => exact ⟨congrArg _ inner.cases_clause.1, inner.cases_clause.2⟩

end Derivation

/-! ### The way to a case -/

namespace Exec

/-- The way into a statement, up to where its own rule takes over. -/
def approach (env : Setting ω τ) (node : Node) (room : Nat) : Exec ω τ Unit :=
  begin env node room fun _ => pure ()

theorem exec_eq_approach (env : Setting ω τ) (node : Node) (room : Nat) :
    exec env node room = approach env node room >>= fun _ => execute env node room := by
  cases room with
  | zero => rfl
  | succ room =>
      show _ = (visit env node room >>= fun _ => pure ()) >>= fun _ => execute env node (room + 1)
      rw [bind_assoc]
      rfl

/-- A run that executes a conditional comes to a case of it, the first one counted as zero: the
tests of the cases before it were evaluated, each once and in order, and none of them holds. -/
inductive Arrives (env : Setting ω τ) (node : Node) (room : Nat) (s : State ω τ) :
    Nat → Node → Nat → State ω τ → Prop
  | first {s₁ : State ω τ} : (approach env node room).runFrom s = (.ok (), s₁) →
      Arrives env node room s 0 node room s₁
  | later {k room' : Nat} {test body other : Node} {line : Line} {s₁ s₂ s₃ : State ω τ} :
      Arrives env node room s k (.conditional test body (some other) line) (room' + 1) s₁ →
      (holds env test (room' + 1)).runFrom s₁ = (.ok false, s₂) →
      (approach env other room').runFrom s₂ = (.ok (), s₃) →
      Arrives env node room s (k + 1) other room' s₃

/-- A run that executes a conditional is stopped before a case was chosen: on the way to a case, or
while its test is evaluated. -/
inductive Hindered (env : Setting ω τ) (node : Node) (room : Nat) (s : State ω τ) :
    Stop → State ω τ → Prop
  | first {stop : Stop} {s₁ : State ω τ} : (approach env node room).runFrom s = (.error stop, s₁) →
      Hindered env node room s stop s₁
  | test {k room' : Nat} {test body : Node} {otherwise : Option Node} {line : Line} {stop : Stop}
      {s₁ s₂ : State ω τ} :
      Arrives env node room s k (.conditional test body otherwise line) room' s₁ →
      (holds env test room').runFrom s₁ = (.error stop, s₂) → Hindered env node room s stop s₂
  | later {k room' : Nat} {test body other : Node} {line : Line} {stop : Stop}
      {s₁ s₂ s₃ : State ω τ} :
      Arrives env node room s k (.conditional test body (some other) line) room' s₁ →
      (holds env test room').runFrom s₁ = (.ok false, s₂) → other.cases ≠ [] →
      (within room' (approach env other)).runFrom s₂ = (.error stop, s₃) →
      Hindered env node room s stop s₃

variable {env : Setting ω τ} {node : Node} {room : Nat} {s : State ω τ}

theorem depth_of_visit {s' : State ω τ} {result : Except Stop Unit}
    (h : (visit env node room).runFrom s = (result, s')) : s'.progress.depth = s.progress.depth := by
  obtain rfl : ((visit env node room).runFrom s).2 = s' := congrArg Prod.snd h
  rw [progress_visit]

theorem depth_of_approach {s' : State ω τ}
    (h : (approach env node room).runFrom s = (.ok (), s')) :
    s'.progress.depth = s.progress.depth := by
  cases room with
  | zero => cases h
  | succ room =>
      obtain ⟨_, s₁, hvisit, hrest⟩ := exists_of_bind_eq_ok h
      cases hrest
      exact depth_of_visit hvisit

theorem depth_of_holds {test : Node} {b : Bool} {s' : State ω τ}
    (h : (holds env test room).runFrom s = (.ok b, s')) :
    s'.progress.depth = s.progress.depth := by
  -- The test has a value, so it was allowed to go a level deeper.
  have hdepth : s.progress.depth ≤ env.limits.depth.most := by
    obtain ⟨v, s₁, heval, -⟩ := exists_of_bind_eq_ok h
    cases room with
    | zero => cases heval
    | succ room =>
        by_contra hlt
        have hmost : env.limits.depth.most < s.progress.depth + 1 := by omega
        unfold eval enter at heval
        dsimp only at heval
        rw [runFrom_deeper] at heval
        dsimp only at heval
        rw [if_pos hmost] at heval
        cases heval
  obtain ⟨hleaves, hsame⟩ := (Leaves.keeps env s.progress.phase).test test room
    ⟨s.heap, s.world, s.progress, s.watch, []⟩ hdepth
  obtain rfl : s' = _ := congrArg Prod.snd (h.symm.trans hsame)
  exact hleaves.depth

namespace Arrives

variable {j k r r' : Nat} {n n' test body : Node} {otherwise : Option Node} {line : Line}
  {t t' t₁ : State ω τ}

theorem runFrom (h : Arrives env node room s k n r t) :
    (exec env node room).runFrom s = (execute env n r).runFrom t := by
  induction h with
  | first hfirst => rw [exec_eq_approach, runFrom_bind_of_ok hfirst]
  | @later _ r _ _ other _ _ t₁ _ _ hholds happroach ih =>
      rw [ih, execute_conditional_some, runFrom_bind_of_ok hholds]
      show (exec env other r).runFrom t₁ = _
      rw [exec_eq_approach, runFrom_bind_of_ok happroach]

theorem depth (h : Arrives env node room s k n r t) : t.progress.depth = s.progress.depth := by
  induction h with
  | first hfirst => exact depth_of_approach hfirst
  | later _ hholds happroach ih =>
      exact (depth_of_approach happroach).trans ((depth_of_holds hholds).trans ih)

theorem drop_cases (h : Arrives env node room s k n r t) :
    n.cases = node.cases.drop k ∧ n.fallback? = node.fallback? := by
  induction h with
  | first _ => exact ⟨rfl, rfl⟩
  | later _ _ _ ih => exact ⟨by rw [← List.tail_drop, ← ih.1]; rfl, ih.2⟩

theorem lt_length (h : Arrives env node room s k n r t) (hn : n.cases ≠ []) :
    k < node.cases.length := by
  rw [h.drop_cases.1] at hn
  exact Nat.not_le.1 (List.drop_eq_nil_iff.not.1 hn)

theorem unique (h : Arrives env node room s k n r t) (h' : Arrives env node room s k n' r' t') :
    n = n' ∧ r = r' ∧ t = t' := by
  induction h generalizing n' r' t' with
  | first hfirst =>
      cases h' with
      | first hfirst' =>
          obtain rfl := congrArg Prod.snd (hfirst.symm.trans hfirst')
          exact ⟨rfl, rfl, rfl⟩
  | later _ hholds happroach ih =>
      cases h' with
      | later hbefore' hholds' happroach' =>
          obtain ⟨hn, hr, rfl⟩ := ih hbefore'
          cases hn
          cases hr
          obtain rfl := congrArg Prod.snd (hholds.symm.trans hholds')
          obtain rfl := congrArg Prod.snd (happroach.symm.trans happroach')
          exact ⟨rfl, rfl, rfl⟩

theorem before (h : Arrives env node room s k n r t) : ∀ {j}, j < k →
    ∃ test body other line r' t' t₁,
      Arrives env node room s j (.conditional test body (some other) line) (r' + 1) t' ∧
      (holds env test (r' + 1)).runFrom t' = (.ok false, t₁) ∧
      ∃ r'' t'', Arrives env node room s (j + 1) other r'' t'' := by
  induction h with
  | first _ => intro j hj; cases hj
  | later hbefore hholds happroach ih =>
      intro j hj
      rcases Nat.lt_succ_iff_lt_or_eq.1 hj with hlt | rfl
      · exact ih hlt
      · exact ⟨_, _, _, _, _, _, _, hbefore, hholds, _, _, hbefore.later hholds happroach⟩

end Arrives

theorem Hindered.runFrom {stop : Stop} {s' : State ω τ} (h : Hindered env node room s stop s') :
    (exec env node room).runFrom s = (.error stop, s') := by
  cases h with
  | first hfirst => rw [exec_eq_approach, runFrom_bind_of_error hfirst]
  | @test _ _ _ _ otherwise _ _ _ _ harrives htest =>
      rw [harrives.runFrom]
      cases otherwise with
      | none => rw [execute_conditional, runFrom_bind_of_error htest]
      | some other => rw [execute_conditional_some, runFrom_bind_of_error htest]
  | @later _ r _ _ other _ _ _ t₁ _ harrives hholds _ happroach =>
      rw [harrives.runFrom, execute_conditional_some, runFrom_bind_of_ok hholds]
      cases r with
      | zero => exact happroach
      | succ r =>
          show (exec env other r).runFrom t₁ = _
          rw [exec_eq_approach]
          exact runFrom_bind_of_error happroach

theorem Arrives.goesOn {k r : Nat} {n : Node} {t : State ω τ}
    (h : Arrives env node room s k n r t) (hn : n.cases ≠ []) :
    (∃ stop s', Hindered env node room s stop s') ∨
    ∃ k test body otherwise line r t b t₁,
      Arrives env node room s k (.conditional test body otherwise line) r t ∧
      (holds env test r).runFrom t = (.ok b, t₁) ∧
      (b = false → ∀ other, otherwise = some other → other.cases = []) := by
  induction n using Node.cases.induct generalizing k r t with
  | case1 test body line =>
      rcases hholds : (holds env test r).runFrom t with ⟨stop | b, t₁⟩
      · exact .inl ⟨stop, t₁, .test h hholds⟩
      · exact .inr ⟨k, test, body, none, line, r, t, b, t₁, h, hholds, fun _ _ hnone => by cases hnone⟩
  | case2 test body other line ih =>
      rcases hholds : (holds env test r).runFrom t with ⟨stop | b, t₁⟩
      · exact .inl ⟨stop, t₁, .test h hholds⟩
      · by_cases hlast : b = false → other.cases = []
        · refine .inr ⟨k, test, body, some other, line, r, t, b, t₁, h, hholds, fun hb _ hsome => ?_⟩
          exact Option.some.inj hsome ▸ hlast hb
        · obtain ⟨rfl, hother⟩ := Classical.not_imp.1 hlast
          rcases happroach : (within r (approach env other)).runFrom t₁ with ⟨stop | ⟨⟩, t₂⟩
          · exact .inl ⟨stop, t₂, .later h hholds hother happroach⟩
          · cases r with
            | zero => cases happroach
            | succ r => exact ih (h.later hholds happroach) hother
  | case3 n hnone hsome => exact absurd (by simp [Node.cases]) hn

theorem Arrives.runFrom_of_holds {k r : Nat} {test body : Node} {otherwise : Option Node} {line : Line}
    {b : Bool} {t t₁ : State ω τ}
    (h : Arrives env node room s k (.conditional test body otherwise line) r t)
    (hholds : (holds env test r).runFrom t = (.ok b, t₁)) :
    (exec env node room).runFrom s =
      ((if b then some body else otherwise).elim (pure ()) (nested env · r)).runFrom t₁ := by
  rw [h.runFrom]
  cases otherwise with
  | none =>
      rw [execute_conditional, runFrom_bind_of_ok hholds]
      cases b <;> rfl
  | some other =>
      rw [execute_conditional_some, runFrom_bind_of_ok hholds]
      cases b <;> rfl

theorem fallback?_of_cases_eq_nil {other : Node} (h : other.cases = []) :
    other.fallback? = some other := by
  cases other with
  | conditional test body otherwise line => cases otherwise <;> cases h
  | _ => rfl

theorem Arrives.last {k r : Nat} {test body : Node} {otherwise : Option Node} {line : Line}
    {t : State ω τ} (h : Arrives env node room s k (.conditional test body otherwise line) r t)
    (hlast : ∀ other, otherwise = some other → other.cases = []) :
    k + 1 = node.cases.length ∧ otherwise = node.fallback? := by
  obtain ⟨hcases, hfallback⟩ := h.drop_cases
  have hlength := congrArg List.length hcases
  rw [List.length_drop] at hlength
  cases otherwise with
  | none =>
      have hone : 1 = node.cases.length - k := hlength
      exact ⟨by omega, hfallback⟩
  | some other =>
      have hnil := hlast other rfl
      have hone : other.cases.length + 1 = node.cases.length - k := hlength
      rw [hnil, List.length_nil] at hone
      exact ⟨by omega, (fallback?_of_cases_eq_nil hnil).symm.trans hfallback⟩

/-! ### What is visited -/

/-- What a run is occupied with on its way through the cases of a conditional, apart from their
tests and blocks: the nested conditionals themselves, as far as it comes to them. -/
inductive Passing (env : Setting ω τ) (node : Node) (room : Nat) (s : State ω τ) :
    Moment ω τ → Prop
  | first : Passing env node room s ⟨.statement node, room, s⟩
  | later {k r : Nat} {test body other : Node} {line : Line} {t t₁ : State ω τ} :
      Arrives env node room s k (.conditional test body (some other) line) (r + 1) t →
      (holds env test (r + 1)).runFrom t = (.ok false, t₁) → other.cases ≠ [] →
      Passing env node room s ⟨.statement other, r, t₁⟩
  | visit {n : Node} {r : Nat} {t : State ω τ} : Passing env node room s ⟨.statement n, r, t⟩ →
      Passing env node room s ⟨.visit n, r - 1, t⟩
  | execution {k r : Nat} {n : Node} {t : State ω τ} : Arrives env node room s k n r t →
      n.cases ≠ [] → Passing env node room s ⟨.execution n, r, t⟩

theorem approach_of_visit {n : Node} {r : Nat} {t t₁ : State ω τ} (hr : r ≠ 0)
    (h : (Exec.visit env n (r - 1)).runFrom t = (.ok (), t₁)) :
    (approach env n r).runFrom t = (.ok (), t₁) := by
  cases r with
  | zero => exact absurd rfl hr
  | succ r => exact runFrom_bind_of_ok h

theorem leads_conditional (hnode : node.cases ≠ []) {m : Moment ω τ}
    (h : Relation.ReflTransGen (Leads env) ⟨.statement node, room, s⟩ m) :
    Passing env node room s m ∨
    (∃ k test body otherwise line r t,
      Arrives env node room s k (.conditional test body otherwise line) r t ∧
      Relation.ReflTransGen (Leads env) ⟨.expression test, r, t⟩ m) ∨
    ∃ k test body otherwise line r t b t₁ block,
      Arrives env node room s k (.conditional test body otherwise line) (r + 1) t ∧
      (holds env test (r + 1)).runFrom t = (.ok b, t₁) ∧
      (if b then some body else otherwise) = some block ∧ (b = false → block.cases = []) ∧
      Relation.ReflTransGen (Leads env) ⟨.statement block, r, t₁⟩ m := by
  induction h with
  | refl => exact .inl .first
  | tail _ hleads ih =>
      obtain hown | ⟨k, test, body, otherwise, line, r, t, harrives, hreach⟩ |
        ⟨k, test, body, otherwise, line, r, t, b, t₁, block, harrives, hholds, hblock, hlast, hreach⟩ := ih
      · cases hown with
        | first =>
            cases hleads with
            | statementVisit _ => exact .inl (.visit .first)
            | statementRule hroom hvisit =>
                exact .inl (.execution (.first (approach_of_visit hroom hvisit)) hnode)
        | later harrives hholds hother =>
            cases hleads with
            | statementVisit _ => exact .inl (.visit (.later harrives hholds hother))
            | statementRule hroom hvisit =>
                exact .inl (.execution (harrives.later hholds (approach_of_visit hroom hvisit)) hother)
        | visit _ => cases hleads
        | execution harrives hn =>
            cases hleads with
            | test => exact .inr (.inl ⟨_, _, _, _, _, _, _, harrives, .refl⟩)
            | consequence hholds =>
                exact .inr (.inr ⟨_, _, _, _, _, _, _, true, _, _, harrives, hholds, rfl,
                  (by simp), .refl⟩)
            | @alternative _ _ other _ _ _ _ hholds =>
                by_cases hother : other.cases = []
                · exact .inr (.inr ⟨_, _, _, _, _, _, _, false, _, _, harrives, hholds, rfl,
                    fun _ => hother, .refl⟩)
                · exact .inl (.later harrives hholds hother)
            | _ => exact absurd rfl hn
      · exact .inr (.inl ⟨_, _, _, _, _, _, _, harrives, hreach.tail hleads⟩)
      · exact .inr (.inr ⟨_, _, _, _, _, _, _, _, _, _, harrives, hholds, hblock, hlast,
          hreach.tail hleads⟩)

/-! ### The case that is taken -/

/-- What a run does with a conditional.  Either it is stopped before a case was chosen.  Or it comes
to the `k`-th case, after the tests of all cases before it were evaluated in order and did not hold,
and evaluates its test, which holds or is the last one.  Then it does what the block of the case
does, or the one behind the last case, if there is one; and all that it is occupied with are the
nested conditionals, the tests up to that case, and this block.  The depth at every case and at the
start of the block is the depth at the start. -/
def TakesFirst (env : Setting ω τ) (node : Node) (room : Nat) (s : State ω τ) : Prop :=
  (∃ stop s', Hindered env node room s stop s' ∧
    (exec env node room).runFrom s = (.error stop, s')) ∨
  ∃ (k : Nat) (test body : Node) (otherwise : Option Node) (line : Line) (r : Nat) (t t₁ : State ω τ)
    (b : Bool),
    Arrives env node room s k (.conditional test body otherwise line) r t ∧
    node.cases[k]? = some (test, body) ∧
    (holds env test r).runFrom t = (.ok b, t₁) ∧ (b = false → k + 1 = node.cases.length) ∧
    let block? := if b then some body else node.fallback?
    (exec env node room).runFrom s = (block?.elim (pure ()) (nested env · r)).runFrom t₁ ∧
    t₁.progress.depth = s.progress.depth ∧
    (∀ j n r t, Arrives env node room s j n r t →
      n.cases = node.cases.drop j ∧ t.progress.depth = s.progress.depth) ∧
    ∀ m, Relation.ReflTransGen (Leads env) ⟨.statement node, room, s⟩ m →
      Passing env node room s m ∨
      (∃ j test body otherwise line r t, j ≤ k ∧
        Arrives env node room s j (.conditional test body otherwise line) r t ∧
        Relation.ReflTransGen (Leads env) ⟨.expression test, r, t⟩ m) ∨
      ∃ block r', block? = some block ∧ r = r' + 1 ∧
        Relation.ReflTransGen (Leads env) ⟨.statement block, r', t₁⟩ m

section Chosen

variable {k r : Nat} {test body : Node} {otherwise : Option Node} {line : Line} {b : Bool}
  {t t₁ : State ω τ} (h : Arrives env node room s k (.conditional test body otherwise line) r t)
  (hholds : (holds env test r).runFrom t = (.ok b, t₁))

include h hholds

theorem Arrives.le (hlast : b = false → k + 1 = node.cases.length) {j r' : Nat} {n : Node}
    {t' : State ω τ} (h' : Arrives env node room s j n r' t') (hn : n.cases ≠ []) : j ≤ k := by
  by_contra hlt
  obtain ⟨_, _, _, _, _, _, _, hbefore, hfalse, -⟩ := h'.before (Nat.not_le.1 hlt)
  obtain ⟨hnode, hroom, rfl⟩ := h.unique hbefore
  cases hnode
  cases hroom
  have hb := Except.ok.inj (congrArg Prod.fst (hholds.symm.trans hfalse))
  have hlength := hlast hb
  have hj := h'.lt_length hn
  omega

theorem Arrives.block_unique (hlast : b = false → k + 1 = node.cases.length) {j r' : Nat}
    {test' body' : Node} {otherwise' : Option Node} {line' : Line} {b' : Bool} {t' t₁' : State ω τ}
    {block : Node}
    (h' : Arrives env node room s j (.conditional test' body' otherwise' line') r' t')
    (hholds' : (holds env test' r').runFrom t' = (.ok b', t₁'))
    (hblock : (if b' then some body' else otherwise') = some block)
    (hnil : b' = false → block.cases = []) :
    (if b then some body else otherwise) = some block ∧ r = r' ∧ t₁ = t₁' := by
  have hne : (Node.conditional test' body' otherwise' line').cases ≠ [] := by
    cases otherwise' <;> simp [Node.cases]
  rcases (h.le hholds hlast h' hne).eq_or_lt with rfl | hlt
  · obtain ⟨hnode, rfl, rfl⟩ := h.unique h'
    cases hnode
    cases hholds.symm.trans hholds'
    exact ⟨hblock, rfl, rfl⟩
  · -- Behind a block that is executed there is no case.
    obtain ⟨_, _, other, _, _, _, _, hbefore, hfalse, r'', t'', hother⟩ := h.before hlt
    obtain ⟨hnode, rfl, rfl⟩ := h'.unique hbefore
    cases hnode
    cases hholds'.symm.trans hfalse
    obtain rfl := Option.some.inj hblock
    have hk := h.lt_length (by cases otherwise <;> simp [Node.cases])
    have hlength := congrArg List.length (hother.drop_cases.1.symm.trans (hnil rfl))
    rw [List.length_drop, List.length_nil] at hlength
    omega

end Chosen

theorem takesFirst (env : Setting ω τ) (room : Nat) (s : State ω τ) (hnode : node.cases ≠ []) :
    TakesFirst env node room s := by
  rcases hfirst : (approach env node room).runFrom s with ⟨stop | ⟨⟩, s₁⟩
  · exact .inl ⟨stop, s₁, .first hfirst, Hindered.runFrom (.first hfirst)⟩
  obtain ⟨stop, s', hstop⟩ | ⟨k, test, body, otherwise, line, r, t, b, t₁, h, hholds, hnone⟩ :=
    (Arrives.first hfirst).goesOn hnode
  · exact .inl ⟨stop, s', hstop, hstop.runFrom⟩
  · have hlast : b = false → k + 1 = node.cases.length := fun hb => (h.last (hnone hb)).1
    have hblock : (if b then some body else otherwise) = if b then some body else node.fallback? := by
      cases b with
      | true => rfl
      | false => exact (h.last (hnone rfl)).2
    have hcase : node.cases[k]? = some (test, body) := by
      have hdrop := h.drop_cases.1
      rw [← List.head?_drop, ← hdrop]
      cases otherwise <;> rfl
    refine .inr ⟨k, test, body, otherwise, line, r, t, t₁, b, h, hcase, hholds, hlast, ?_⟩
    rw [← hblock]
    refine ⟨h.runFrom_of_holds hholds, (depth_of_holds hholds).trans h.depth,
      fun j n r t h' => ⟨h'.drop_cases.1, h'.depth⟩, fun m hm => ?_⟩
    obtain hown | ⟨j, test', body', otherwise', line', r', t', h', hreach⟩ |
      ⟨j, test', body', otherwise', line', r', t', b', t₁', block, h', hholds', hchosen, hnil, hreach⟩ :=
      leads_conditional hnode hm
    · exact .inl hown
    · have hne : (Node.conditional test' body' otherwise' line').cases ≠ [] := by
        cases otherwise' <;> simp [Node.cases]
      exact .inr (.inl ⟨j, _, _, _, _, _, _, h.le hholds hlast h' hne, h', hreach⟩)
    · obtain ⟨hsame, rfl, rfl⟩ := h.block_unique hholds hlast h' hholds' hchosen hnil
      exact .inr (.inr ⟨block, r', hsame, rfl, hreach⟩)

end Exec

/-- **Conditionals take the first case that applies.**  A conditional that is written in a script is
read as one with the cases that are written, in their order, and with the block that is written
behind them; and in every setting and state it takes the first case that applies. -/
theorem conditional_first_match {c : Cursor} {opened : Nat} {looped : Bool} {rest : List Token}
    (word : Word .ifWord) (test : Derivation .expression) (body : Derivation .block)
    (alt : Derivation .alternative) (hc : c.Within opened looped)
    (hfits : (Derivation.conditional word test body alt).Fits opened looped)
    (hleft : c.left = (Derivation.conditional word test body alt).yield ++ rest)
    (hrest : Phrase.statement.stops rest = true) :
    ∃ node c', (Parse.entry Grammar.statement).runFrom c = (.ok node, c') ∧ c'.left = rest ∧
      node.cases = (Derivation.conditional word test body alt).cases ∧
      node.fallback? = (Derivation.conditional word test body alt).fallback? ∧
      ∀ {ω τ : Type} (env : Setting ω τ) (room : Nat) (s : State ω τ),
        Exec.TakesFirst env node room s := by
  have hlevels : opened + c.levels = maxNesting := by
    have hroom := hc.room
    rw [Cursor.levels, hc.nesting]
    omega
  have hin := Grammar.rules_complete c.levels opened hlevels
  obtain ⟨c', hread, -, hleft'⟩ := Grammar.statement_complete hin
    (Derivation.conditional word test body alt) hc hfits hleft
    (Derivation.stopsBefore_of_stops (by simp) hrest)
  obtain ⟨hcases, hfallback⟩ := Derivation.cases_meaning word test body alt
  refine ⟨_, c', ?_, hleft', hcases, hfallback, fun env room s => ?_⟩
  · rw [Parse.entry, Parse.runFrom_bind_get]
    exact hread
  · refine Exec.takesFirst env room s ?_
    rw [hcases]
    exact List.cons_ne_nil _ _

/-- The tokens of `if a { }`, of `else if b { }` in the next line and of `else { }`. -/
theorem conditional_first_match_mixed :
    let tokens : List Token := [⟨.keyword .ifWord, 1, 1⟩, ⟨.ident "a", 1, 4⟩, ⟨.symbol .lbrace, 1, 6⟩,
      ⟨.symbol .rbrace, 1, 8⟩, ⟨.newline, 1, 9⟩, ⟨.keyword .elseWord, 2, 1⟩, ⟨.keyword .ifWord, 2, 6⟩,
      ⟨.ident "b", 2, 9⟩, ⟨.symbol .lbrace, 2, 11⟩, ⟨.symbol .rbrace, 2, 13⟩,
      ⟨.keyword .elseWord, 2, 15⟩, ⟨.symbol .lbrace, 2, 20⟩, ⟨.symbol .rbrace, 2, 22⟩, ⟨.eof, 2, 23⟩]
    ∃ c node c', c.left = tokens ∧ (Parse.entry Grammar.statement).runFrom c = (.ok node, c') ∧
      node.cases = [(.ident "a" (.number 1), .block [] (.number 1)),
        (.ident "b" (.number 2), .block [] (.number 2))] ∧
      node.fallback? = some (.block [] (.number 2)) ∧
      ∀ (env : Setting Host Unit) (room : Nat) (s : State Host Unit),
        Exec.TakesFirst env node room s := by
  intro tokens
  let named (name : String) (line column : Nat) : Derivation .expression :=
    .chain (.chain (.positive (.chain (.chain (.chain (.unsigned (.primary
      (.ident ⟨name, line, column⟩) .trailersEnd)) .tailEnd) .tailEnd) .tailEnd)) .tailEnd) .tailEnd
  have hnamed : ∀ name line column, (named name line column).Proper := fun _ _ _ =>
    ⟨⟨⟨⟨⟨⟨trivial, trivial, Bool.noConfusion⟩, trivial⟩, trivial⟩, trivial⟩, trivial⟩, trivial⟩
  let block (line column : Nat) : Derivation .block :=
    .block ⟨(), line, column⟩ [] .noStatement ⟨(), line, column + 2⟩
  obtain ⟨c, -, hleft, hc⟩ := Cursor.exists_start "mixed" none
    (show Ended tokens from ⟨tokens.dropLast, _, rfl, rfl, by decide⟩)
  obtain ⟨node, c', hread, -, hcases, hfallback, hruns⟩ := conditional_first_match ⟨(), 1, 1⟩
    (named "a" 1 4) (block 1 6) (.clause [⟨(), 1, 9⟩] (.elseIf ⟨(), 2, 1⟩ ⟨(), 2, 6⟩
      (named "b" 2 9) (block 2 11) (.clause [] (.otherwise ⟨(), 2, 15⟩ (block 2 20))))) hc
    ⟨⟨hnamed "a" 1 4, trivial, hnamed "b" 2 9, trivial, trivial⟩, ⟨trivial, trivial, trivial⟩,
      by decide⟩ hleft rfl
  exact ⟨c, node, c', hleft, hread, hcases, hfallback, hruns⟩

end TriggerEngine
