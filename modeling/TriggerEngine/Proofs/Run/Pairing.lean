/-
**Paired runs.**

Much of what is to be said about runs compares two of them: a program is run under two watchers or
under two limits, or once and a property of states is followed along the way.  Every such comparison
has to be carried through all rules of the interpreter, and all but a few of its steps are the same.
A pairing is a relation between computations in two settings of one world that the steps of a run
respect.  The comparison is then made once for each kind of step, and the theorems of this module
carry it through whole programs.  For expressions alone fewer kinds of steps are needed: they set
neither variables nor cooldowns and go around no loops.

A pairing may be strict: then it need not bear with trees that are not well-formed, and the theorems
ask for well-formed programs.  It may also rely on something that holds of all nodes of a program.

Main definitions:

* `Node.Each`, `Node.EachOf` — what holds of all nodes of a tree;
* `Setting.under` — a setting with other limits and another watcher;
* `Exec.ExpressionPairing`, `Exec.Pairing` — relations that the steps of expressions and the steps
  of a run respect.

Main results:

* `Exec.ExpressionPairing.evaluate`, `Exec.ExpressionPairing.eval` — paired expressions;
* `Exec.Pairing.execute`, `Exec.Pairing.execAll` — paired statements.
-/

import TriggerEngine.Proofs.Run.WellFormed
import TriggerEngine.Run.Eval

set_option autoImplicit false

namespace TriggerEngine

/-! ### The nodes of a tree -/

namespace Node

/-- Whether something holds of all nodes of a tree. -/
def Each (P : Node → Prop) (node : Node) : Prop :=
  ∀ part ∈ node.nodes, P part

/-- Whether something holds of all nodes of a row of trees. -/
def EachOf (P : Node → Prop) (nodes : List Node) : Prop :=
  ∀ part ∈ nodesOf nodes, P part

variable {P : Node → Prop} {node part : Node} {rest parts : List Node}

theorem Each.self (h : node.Each P) : P node :=
  h node node.mem_nodes

theorem Each.sub (h : node.Each P)
    (hpart : ∀ n ∈ part.nodes, n ∈ node.nodes := by
      intro n hn
      simp only [Node.nodes, List.mem_cons, List.mem_append, hn, true_or, or_true]) :
    part.Each P :=
  fun n hn => h n (hpart n hn)

theorem Each.row (h : node.Each P)
    (hparts : ∀ n ∈ nodesOf parts, n ∈ node.nodes := by
      intro n hn
      simp only [Node.nodes, List.mem_cons, List.mem_append, hn, true_or, or_true]) :
    EachOf P parts :=
  fun n hn => h n (hparts n hn)

theorem EachOf.head (h : EachOf P (node :: rest)) : node.Each P :=
  fun n hn => h n (by simp [nodesOf, hn])

theorem EachOf.tail (h : EachOf P (node :: rest)) : EachOf P rest :=
  fun n hn => h n (by simp [nodesOf, hn])

end Node

/-! ### Pairings -/

/-- A setting with other limits and another watcher. -/
def Setting.under {ω τ₁ τ₂ : Type} (E : Setting ω τ₁) (limits : Limits)
    (watcher : Option (Watcher ω τ₂)) : Setting ω τ₂ :=
  ⟨E.binding, limits, watcher, E.context⟩

namespace Exec

/-- The body of a loop or a conditional: a node that is visited and executed. -/
def nested {ω τ : Type} (env : Setting ω τ) (node : Node) (room : Nat) : Exec ω τ Unit :=
  within room fun room => begin env node room (execute env node)

/-- The place that an index means in a row of a length. -/
def placeOf {ω τ : Type} (key : Value) (length : Nat) (expression : Quotation) (line : Line) :
    Exec ω τ Nat :=
  match key.int? with
  | none => quoting line expression (.index key.typeName)
  | some i =>
    if 0 ≤ i && i < length then return i.toNat
    else if (Number.intText? i).isNone then fail .tooManyDigits
    else failAt line (.indexOutOfRange i length)

/-- What a run has the world do, besides setting globals.  A call and the reading of an attribute
may fail with ordinary causes at a line, which have to be allowed then, as the faults have to be of
quoting what is called. -/
inductive Turn {ω : Type} (binding : Binding ω) (context : Value) (Allows : Fault → Prop) :
    {α : Type} → (Heap → ω → Except Fault α × Heap × ω) → Prop
  | invoke (room : Nat) (role : Role) (name : String) (args : List Value) {line : Line}
      (hline : ∀ cause : Cause, cause.isOrdinary = true → Allows (.ofCause line cause)) :
      Turn binding context Allows (invokeIn binding context room role name args line)
  | call (room : Nat) (callee : Value) (args : List Value) {expression : Quotation} {line : Line}
      (hline : ∀ cause : Cause, cause.isOrdinary = true → Allows (.ofCause line cause))
      (hexpression : FailsOnly Allows (expression ())) :
      Turn binding context Allows (callIn binding room callee args expression line)
  | member (id : Nat) (name : String) {line : Line}
      (hline : ∀ cause : Cause, cause.isOrdinary = true → Allows (.ofCause line cause)) :
      Turn binding context Allows (attributeIn binding id name line)
  | consult (room : Nat) (inquiry : Inquiry) :
      Turn binding context Allows (binding.consult room inquiry)
  | item (room id i : Nat) : Turn binding context Allows (binding.item? room id i)

/-- A relation between computations in two settings of one world that the steps of expressions
respect; the truth value says whether the computations stand inside a loop. -/
structure ExpressionPairing {ω τ₁ τ₂ : Type} (E : Setting ω τ₁) (limits : Limits)
    (watcher : Option (Watcher ω τ₂)) where
  /-- The relation. -/
  Rel : {α : Type} → Bool → Exec ω τ₁ α → Exec ω τ₂ α → Prop
  /-- The faults with which paired computations may fail. -/
  Allows : Fault → Prop
  /-- What holds of all nodes. -/
  Holds : Node → Prop
  /-- Whether only well-formed trees are paired. -/
  strict : Bool
  blunt : ∀ {fault}, fault.IsBlunt → Allows fault
  cause : ∀ {node cause}, Holds node → cause.isOrdinary = true →
    Allows (.ofCause node.line cause)
  notWord : ∀ {target name line}, Holds (.member target name line) →
    (∀ word, name = .word word → False) → Allows (notWord name)
  loose : strict = false → ∀ {fault}, fault.isFinal = false → Allows fault
  pure : ∀ {α : Type} {looped : Bool} (a : α), Rel looped (Pure.pure a) (Pure.pure a)
  bind : ∀ {α β : Type} {looped : Bool} {x₁ : Exec ω τ₁ α} {x₂ : Exec ω τ₂ α}
    {f₁ : α → Exec ω τ₁ β} {f₂ : α → Exec ω τ₂ β}, Rel looped x₁ x₂ →
    (∀ a, Rel looped (f₁ a) (f₂ a)) → Rel looped (x₁ >>= f₁) (x₂ >>= f₂)
  read : ∀ {α : Type} {looped : Bool} {f₁ : State ω τ₁ → Exec ω τ₁ α}
    {f₂ : State ω τ₂ → Exec ω τ₂ α},
    (∀ h w p t₁ t₂, Rel looped (f₁ ⟨h, w, p, t₁⟩) (f₂ ⟨h, w, p, t₂⟩)) →
    Rel looped (get >>= f₁) (get >>= f₂)
  fail : ∀ {α : Type} {looped : Bool} {fault : Fault}, Allows fault →
    Rel looped (Exec.fail fault : Exec ω τ₁ α) (Exec.fail fault)
  onHeap : ∀ {α : Type} {looped : Bool} (f : Heap → α × Heap),
    Rel looped (Exec.onHeap f) (Exec.onHeap f)
  onWorld : ∀ {α : Type} {looped : Bool} {f : Heap → ω → Except Fault α × Heap × ω},
    Turn E.binding E.context Allows f → Rel looped (Exec.onWorld f) (Exec.onWorld f)
  visit : ∀ {looped : Bool} {node : Node} (room : Nat), Holds node →
    (strict = true → node.IsWellFormed) →
    Rel looped (Exec.visit E node room) (Exec.visit (E.under limits watcher) node room)
  deeper : ∀ {α : Type} {looped : Bool} {node : Node} {which : String → LimitCause}
    {x₁ : Exec ω τ₁ α} {x₂ : Exec ω τ₂ α}, which = .expression ∨ which = .block →
    Holds node → Rel looped x₁ x₂ →
    Rel looped
      (Exec.deeper E.limits.depth.most
        (fun _ => node.faultAt (.limit (which E.limits.depth.text))) x₁)
      (Exec.deeper limits.depth.most (fun _ => node.faultAt (.limit (which limits.depth.text))) x₂)

/-- A relation between computations in two settings of one world that the steps of a run respect. -/
structure Pairing {ω τ₁ τ₂ : Type} (E : Setting ω τ₁) (limits : Limits)
    (watcher : Option (Watcher ω τ₂)) extends ExpressionPairing E limits watcher where
  leave : ∀ {α : Type}, Rel true (Exec.fail (.leave "" false) : Exec ω τ₁ α)
    (Exec.fail (.leave "" false))
  next : ∀ {α : Type}, Rel true (Exec.fail (.next "" false) : Exec ω τ₁ α)
    (Exec.fail (.next "" false))
  setLocal : ∀ {looped : Bool} (name : Name) (v : Value),
    Rel looped (Exec.setLocal name v) (Exec.setLocal name v)
  coolDown : ∀ {looped : Bool} (time : Number) (mark : Mark),
    Rel looped (onProgress fun p => { p with cooldownEnd := some time, cooldownMark := mark })
      (onProgress fun p => { p with cooldownEnd := some time, cooldownMark := mark })
  store : ∀ {looped : Bool} (name : String) (v : Value),
    Rel looped (Exec.onWorld (storeIn E.binding name v)) (Exec.onWorld (storeIn E.binding name v))
  round : ∀ {looped : Bool} {x₁ : Exec ω τ₁ Unit} {x₂ : Exec ω τ₂ Unit}, Rel true x₁ x₂ →
    Rel looped (Exec.round x₁) (Exec.round x₂)
  repetition : ∀ {looped : Bool} {test body : Node} {room : Nat},
    Rel looped (Exec.eval E test room) (Exec.eval (E.under limits watcher) test room) →
    Rel true (Exec.nested E body room) (Exec.nested (E.under limits watcher) body room) →
    Rel looped
      (Exec.rounds E >>= Exec.repeatWhile (Exec.eval E test room >>= Exec.truthy E room)
        (Exec.nested E body room))
      (Exec.rounds (E.under limits watcher) >>= Exec.repeatWhile
        (Exec.eval (E.under limits watcher) test room >>=
          Exec.truthy (E.under limits watcher) room)
        (Exec.nested (E.under limits watcher) body room))
  items : ∀ {looped : Bool} (name : Name) (id : Nat) {body : Node} {room : Nat},
    Rel true (Exec.nested E body room) (Exec.nested (E.under limits watcher) body room) →
    Rel looped
      (Exec.rounds E >>= fun fuel =>
        Exec.forItems E room name id (Exec.nested E body room) fuel 0)
      (Exec.rounds (E.under limits watcher) >>= fun fuel =>
        Exec.forItems (E.under limits watcher) room name id
          (Exec.nested (E.under limits watcher) body room) fuel 0)

/-! ### Loops with the same number of rounds -/

/-- A relation between computations that one computation after the other respects. -/
structure Stepwise (ω τ₁ τ₂ : Type) where
  /-- The relation. -/
  Rel : {α : Type} → Bool → Exec ω τ₁ α → Exec ω τ₂ α → Prop
  pure : ∀ {α : Type} {looped : Bool} (a : α), Rel looped (Pure.pure a) (Pure.pure a)
  bind : ∀ {α β : Type} {looped : Bool} {x₁ : Exec ω τ₁ α} {x₂ : Exec ω τ₂ α}
    {f₁ : α → Exec ω τ₁ β} {f₂ : α → Exec ω τ₂ β}, Rel looped x₁ x₂ →
    (∀ a, Rel looped (f₁ a) (f₂ a)) → Rel looped (x₁ >>= f₁) (x₂ >>= f₂)
  noRoom : ∀ {α : Type} {looped : Bool}, Rel looped (Exec.noRoom : Exec ω τ₁ α) Exec.noRoom
  setLocal : ∀ {looped : Bool} (name : Name) (v : Value),
    Rel looped (Exec.setLocal name v) (Exec.setLocal name v)
  round : ∀ {looped : Bool} {x₁ : Exec ω τ₁ Unit} {x₂ : Exec ω τ₂ Unit}, Rel true x₁ x₂ →
    Rel looped (Exec.round x₁) (Exec.round x₂)

namespace Stepwise

variable {ω τ₁ τ₂ : Type} (R : Stepwise ω τ₁ τ₂) {looped : Bool} {body₁ : Exec ω τ₁ Unit}
  {body₂ : Exec ω τ₂ Unit} (hbody : R.Rel true body₁ body₂)

include hbody

theorem repeatWhile {test₁ : Exec ω τ₁ Bool} {test₂ : Exec ω τ₂ Bool}
    (htest : R.Rel looped test₁ test₂) (fuel : Nat) :
    R.Rel looped (Exec.repeatWhile test₁ body₁ fuel) (Exec.repeatWhile test₂ body₂ fuel) := by
  induction fuel with
  | zero => exact R.noRoom
  | succ fuel ih =>
      refine R.bind htest fun holds => ?_
      split
      · refine R.bind (R.round hbody) fun goesOn => ?_
        split
        · exact ih
        · exact R.pure _
      · exact R.pure _

theorem forItems (E₁ : Setting ω τ₁) (E₂ : Setting ω τ₂) {room id : Nat}
    (hitem : ∀ i, R.Rel looped (onWorld (E₁.binding.item? room id i))
      (onWorld (E₂.binding.item? room id i))) (name : Name) (fuel i : Nat) :
    R.Rel looped (Exec.forItems E₁ room name id body₁ fuel i)
      (Exec.forItems E₂ room name id body₂ fuel i) := by
  induction fuel generalizing i with
  | zero => exact R.noRoom
  | succ fuel ih =>
      refine R.bind (hitem i) fun found => ?_
      cases found with
      | none => exact R.pure _
      | some v =>
          refine R.bind (R.setLocal name v) fun _ => R.bind (R.round hbody) fun goesOn => ?_
          split
          · exact ih (i + 1)
          · exact R.pure _

end Stepwise

namespace ExpressionPairing

variable {ω τ₁ τ₂ : Type} {E : Setting ω τ₁} {limits : Limits} {watcher : Option (Watcher ω τ₂)}
  (C : ExpressionPairing E limits watcher) {looped : Bool}

/-! ### Faults -/

/-- Whether ordinary causes may be blamed on a line. -/
def Lined (line : Line) : Prop :=
  ∀ cause : Cause, cause.isOrdinary = true → C.Allows (.ofCause line cause)

variable {C} in
theorem lined_of_loose (h : C.strict = true → False) (line : Line) : C.Lined line :=
  fun _ hcause => C.loose (Bool.eq_false_iff.2 h)
    (Fault.isOrdinary_iff.1 (Fault.isOrdinary_ofCause line hcause)).2.2

theorem failAt {α : Type} {line : Line} (hline : C.Lined line) {cause : Cause}
    (h : cause.isOrdinary = true) :
    C.Rel looped (Exec.failAt line cause : Exec ω τ₁ α) (Exec.failAt line cause) :=
  C.fail (hline cause h)

theorem mismatch {α : Type} {line : Line} (hline : C.Lined line) {what : Mismatch}
    (h : what.isStructural = false) :
    C.Rel looped (Exec.mismatch line what : Exec ω τ₁ α) (Exec.mismatch line what) := by
  refine C.failAt hline ?_
  simp only [Cause.isOrdinary, Cause.isStructural, Cause.isStepLimit, h, Bool.not_false,
    Bool.and_self]

theorem noRoom {α : Type} : C.Rel looped (Exec.noRoom : Exec ω τ₁ α) Exec.noRoom :=
  C.fail (C.blunt (.noRoom _))

theorem ofExcept {α : Type} {result : Except Fault α} (h : FailsOnly C.Allows result) :
    C.Rel looped (Exec.ofExcept result) (Exec.ofExcept result) := by
  cases result with
  | ok a => exact C.pure a
  | error fault => exact C.fail (h fault rfl)

theorem ofBlunt {α : Type} {result : Except Fault α} (h : FailsOnly Fault.IsBlunt result) :
    C.Rel looped (Exec.ofExcept result) (Exec.ofExcept result) :=
  C.ofExcept fun fault hfault => C.blunt (h fault hfault)

theorem allows_format {node : Node} (h : C.strict = true → node.IsExpression) :
    FailsOnly C.Allows node.format :=
  have W : Node.WritingFaults C.Allows C.strict :=
    ⟨C.blunt .digits, fun hstrict _ hfault => C.loose hstrict (Fault.isOrdinary_iff.1 hfault).2.2⟩
  W.format node h

theorem quoting {α : Type} {line : Line} (hline : C.Lined line) {expression : Quotation}
    {what : String → Mismatch} (h : FailsOnly C.Allows (expression ()))
    (hwhat : ∀ text, (what text).isStructural = false) :
    C.Rel looped (Exec.quoting line expression what : Exec ω τ₁ α)
      (Exec.quoting line expression what) :=
  C.bind (C.ofExcept h) fun text => C.mismatch hline (hwhat text)

theorem guarded {α : Type} {c : Prop} [Decidable c] {x₁ : Exec ω τ₁ PUnit} {x₂ : Exec ω τ₂ PUnit}
    {y₁ : Exec ω τ₁ α} {y₂ : Exec ω τ₂ α} (hx : C.Rel looped x₁ x₂) (hy : C.Rel looped y₁ y₂) :
    C.Rel looped (if c then x₁ >>= fun _ => y₁ else y₁)
      (if c then x₂ >>= fun _ => y₂ else y₂) := by
  split
  · exact C.bind hx fun _ => hy
  · exact hy

theorem guardedBy {α β : Type} {c : Prop} [Decidable c] {x₁ : Exec ω τ₁ β} {x₂ : Exec ω τ₂ β}
    {f₁ : β → Exec ω τ₁ PUnit} {f₂ : β → Exec ω τ₂ PUnit} {y₁ : Exec ω τ₁ α} {y₂ : Exec ω τ₂ α}
    (hx : C.Rel looped x₁ x₂) (hf : ∀ b, C.Rel looped (f₁ b) (f₂ b)) (hy : C.Rel looped y₁ y₂) :
    C.Rel looped (if c then x₁ >>= fun b => f₁ b >>= fun _ => y₁ else y₁)
      (if c then x₂ >>= fun b => f₂ b >>= fun _ => y₂ else y₂) := by
  split
  · exact C.bind hx fun b => C.bind (hf b) fun _ => hy
  · exact hy

/-! ### Text and equality -/

theorem consult (room : Nat) (inquiry : Inquiry) :
    C.Rel looped (Exec.consult E room inquiry)
      (Exec.consult (E.under limits watcher) room inquiry) :=
  C.onWorld (.consult room inquiry)

theorem discard {α : Type} {x₁ : Exec ω τ₁ α} {x₂ : Exec ω τ₂ α} (h : C.Rel looped x₁ x₂) :
    C.Rel looped (Functor.discard x₁) (Functor.discard x₂) :=
  have hbind : ∀ (τ : Type) (x : Exec ω τ α),
      Functor.discard x = x >>= fun _ => Pure.pure PUnit.unit := fun _ _ => rfl
  hbind τ₁ x₁ ▸ hbind τ₂ x₂ ▸ C.bind h fun _ => C.pure _

theorem truthy (room : Nat) (v : Value) :
    C.Rel looped (Exec.truthy E room v) (Exec.truthy (E.under limits watcher) room v) :=
  C.bind (C.consult room _) fun _ => C.read fun _ _ _ _ _ => C.pure _

theorem textOf (room : Nat) (v : Value) :
    C.Rel looped (Exec.textOf E room v) (Exec.textOf (E.under limits watcher) room v) := by
  refine C.bind (C.consult room _) fun answer => C.read fun h w p t₁ t₂ => ?_
  dsimp only [Setting.under]
  split
  · exact C.pure _
  · rename_i reason _
    refine C.fail (C.blunt ?_)
    cases reason with
    | tooDeep => exact .noRoom _
    | tooLong => exact .digits

theorem writtenOf (room : Nat) (v : Value) :
    C.Rel looped (Exec.writtenOf E room v)
      (Exec.writtenOf (E.under limits watcher) room v) := by
  unfold Exec.writtenOf
  split
  · exact C.pure _
  · refine C.bind (C.textOf _ _) fun _ => ?_
    split
    · exact C.pure _
    · exact C.onHeap _

theorem concatenation (a b : Value) :
    C.Rel looped (Exec.concatenation a b : Exec ω τ₁ Value) (Exec.concatenation a b) := by
  unfold Exec.concatenation
  split
  · split
    · exact C.pure _
    · split
      · exact C.pure _
      · exact C.onHeap _
  · exact C.pure _

theorem valuesEqual (room : Nat) (a b : Value) :
    C.Rel looped (Exec.valuesEqual E room a b)
      (Exec.valuesEqual (E.under limits watcher) room a b) := by
  refine C.bind (C.consult room _) fun answer => ?_
  cases answer with
  | some v => exact C.read fun _ _ _ _ _ => C.pure _
  | none =>
      refine C.read fun h w p t₁ t₂ => ?_
      dsimp only
      split
      · exact C.pure _
      · exact C.fail (C.blunt (.noRoom _))

/-! ### Operators -/

theorem numeric (result : Except Number.Trouble Number) :
    C.Rel looped (Exec.numeric result : Exec ω τ₁ Value) (Exec.numeric result) := by
  cases result with
  | ok n => exact C.onHeap fun h => h.newNumber n
  | error trouble => exact C.fail (C.blunt (.number trouble))

theorem quotient {line : Line} (hline : C.Lined line) (b : Number)
    (result : Except Number.Trouble Number) :
    C.Rel looped (Exec.quotient line b result : Exec ω τ₁ Value)
      (Exec.quotient line b result) := by
  unfold Exec.quotient
  split
  · exact C.failAt hline rfl
  · exact C.numeric result

theorem failsBluntly_repetitions (memory size : Nat) (n : Int) {tooLong : Fault}
    (h : tooLong.IsBlunt) : FailsOnly Fault.IsBlunt (repetitions memory size n tooLong) := by
  unfold repetitions
  split
  · exact .error .count
  · split
    · exact .ok _
    · split
      · exact .error h
      · split
        · exact .error .memory
        · exact .ok _

theorem repeatText (text : Value) (s : String) (n : Int) :
    C.Rel looped (Exec.repeatText E text s n)
      (Exec.repeatText (E.under limits watcher) text s n) := by
  refine C.read fun h w p t₁ t₂ => ?_
  refine C.bind (C.ofBlunt (failsBluntly_repetitions _ _ _ .length)) fun count => ?_
  split
  · exact C.pure _
  · exact C.onHeap _

theorem binary (room : Nat) (op : Operator) (a b : Value) {expression : Quotation} {line : Line}
    (hline : C.Lined line) (h : FailsOnly C.Allows (expression ())) :
    C.Rel looped (Exec.binary E room op a b expression line)
      (Exec.binary (E.under limits watcher) room op a b expression line) := by
  have hrefused : C.Rel looped
      (Exec.quoting line expression fun text => .operator text a.typeName b.typeName :
        Exec ω τ₁ Value)
      (Exec.quoting line expression fun text => .operator text a.typeName b.typeName) :=
    C.quoting hline h fun _ => rfl
  unfold Exec.binary
  dsimp only
  split
  · split
    · exact C.onHeap _
    · split
      · exact C.numeric _
      · split
        · exact C.bind (C.writtenOf room a) fun left =>
            C.bind (C.writtenOf room b) fun right => C.concatenation left right
        · exact hrefused
  · split
    · exact C.numeric _
    · exact hrefused
  · split
    · exact C.repeatText _ _ _
    · refine C.read fun heap w p t₁ t₂ => ?_
      exact C.bind (C.ofBlunt ((failsBluntly_repetitions _ _ _ .memory).map _)) fun _ => C.onHeap _
    · split
      · exact C.numeric _
      · exact hrefused
  · split
    · exact C.quotient hline _ _
    · exact hrefused
  · split
    · exact C.quotient hline _ _
    · exact hrefused
  · exact C.bind (C.valuesEqual room a b) fun _ => C.pure _
  · exact C.bind (C.valuesEqual room a b) fun _ => C.pure _
  · split
    · exact C.pure _
    · exact hrefused

theorem signed (op : Operator) (v : Value) {expression : Quotation} {line : Line}
    (hline : C.Lined line) (h : FailsOnly C.Allows (expression ())) :
    C.Rel looped (Exec.signed op v expression line : Exec ω τ₁ Value)
      (Exec.signed op v expression line) := by
  unfold Exec.signed
  split
  · exact C.quoting hline h fun _ => rfl
  · split
    · exact C.onHeap _
    · exact C.pure _

/-! ### Items and members -/

theorem placeOf (key : Value) (length : Nat) {expression : Quotation} {line : Line}
    (hline : C.Lined line) (h : FailsOnly C.Allows (expression ())) :
    C.Rel looped (Exec.placeOf key length expression line : Exec ω τ₁ Nat)
      (Exec.placeOf key length expression line) := by
  unfold Exec.placeOf
  split
  · exact C.quoting hline h fun _ => rfl
  · split
    · exact C.pure _
    · split
      · exact C.fail (C.blunt .digits)
      · exact C.failAt hline rfl

theorem itemOf (room : Nat) (target key : Value) {expression target' : Quotation} {line : Line}
    (hline : C.Lined line) (h : FailsOnly C.Allows (expression ()))
    (h' : FailsOnly C.Allows (target' ())) :
    C.Rel looped (Exec.itemOf E room target key expression target' line)
      (Exec.itemOf (E.under limits watcher) room target key expression target' line) := by
  refine C.read fun heap w p t₁ t₂ => ?_
  dsimp only
  split
  · exact C.bind (C.placeOf key _ hline h) fun _ => C.pure _
  · exact C.bind (C.placeOf key _ hline h) fun _ => C.onHeap _
  · refine C.guarded (C.fail (C.blunt (.key _))) ?_
    split
    · exact C.pure _
    · exact C.bind (C.textOf room key) fun _ => C.failAt hline rfl
  · exact C.quoting hline h' fun _ => rfl

theorem memberOf (target : Value) (name : Name) {line : Line} (hline : C.Lined line)
    (hname : (∀ word, name = .word word → False) → C.Allows (Exec.notWord name)) :
    C.Rel looped (Exec.memberOf E target name line)
      (Exec.memberOf (E.under limits watcher) target name line) := by
  refine C.read fun heap w p t₁ t₂ => ?_
  dsimp only [Setting.under]
  split
  · split
    · exact C.pure _
    · exact C.failAt hline rfl
  · exact C.mismatch hline rfl
  · split
    · refine C.guarded (C.failAt hline rfl) ?_
      split
      · exact C.onWorld (.member _ _ hline)
      · split
        · exact C.onHeap _
        · exact C.pure _
        · exact C.failAt hline rfl
    · rename_i hword
      exact C.fail (hname hword)

/-! ### Into nodes -/

theorem within {α : Type} (room : Nat) {rule₁ : Nat → Exec ω τ₁ α} {rule₂ : Nat → Exec ω τ₂ α}
    (h : ∀ room, C.Rel looped (rule₁ room) (rule₂ room)) :
    C.Rel looped (Exec.within room rule₁) (Exec.within room rule₂) := by
  cases room with
  | zero => exact C.noRoom
  | succ room => exact h room

section Nodes

variable {node : Node} (hholds : C.Holds node)

include hholds

theorem lined : C.Lined node.line :=
  fun _ => C.cause hholds

theorem enter {α : Type} (hnode : C.strict = true → node.IsExpression) (room : Nat)
    {rule₁ : Nat → Exec ω τ₁ α} {rule₂ : Nat → Exec ω τ₂ α}
    (h : ∀ room, C.Rel looped (rule₁ room) (rule₂ room)) :
    C.Rel looped (Exec.enter E node room rule₁)
      (Exec.enter (E.under limits watcher) node room rule₂) := by
  have hwell : C.strict = true → node.IsWellFormed := fun hstrict => .inl (hnode hstrict)
  unfold Exec.enter
  cases room with
  | zero => exact C.noRoom
  | succ room =>
      refine C.deeper (.inl rfl) hholds ?_
      cases room with
      | zero => exact C.noRoom
      | succ room => exact C.bind (C.visit _ hholds hwell) fun _ => C.guarded C.noRoom (h room)

theorem begin (hnode : C.strict = true → node.IsWellFormed) (room : Nat)
    {rule₁ : Nat → Exec ω τ₁ Unit} {rule₂ : Nat → Exec ω τ₂ Unit}
    (h : ∀ room, C.Rel looped (rule₁ room) (rule₂ room)) :
    C.Rel looped (Exec.begin E node room rule₁)
      (Exec.begin (E.under limits watcher) node room rule₂) :=
  C.guarded C.noRoom (C.bind (C.visit _ hholds hnode) fun _ => h room)

end Nodes

theorem enterBlock {body : List Node} {line : Line} (hholds : C.Holds (.block body line))
    (room : Nat) {rule₁ : Nat → Exec ω τ₁ Unit} {rule₂ : Nat → Exec ω τ₂ Unit}
    (h : ∀ room, C.Rel looped (rule₁ room) (rule₂ room)) :
    C.Rel looped (Exec.enterBlock E line room rule₁)
      (Exec.enterBlock (E.under limits watcher) line room rule₂) :=
  C.within room fun room => C.deeper (.inr rfl) hholds (C.within room h)

/-! ### Expressions -/

theorem globalOf (room : Nat) (name : String) :
    C.Rel looped (Exec.globalOf E room name) (Exec.globalOf (E.under limits watcher) room name) :=
  C.bind (C.discard (C.consult room _)) fun _ => C.read fun _ _ _ _ _ => C.pure _

theorem variableOf (room : Nat) (name : Name) {line : Line} (hline : C.Lined line) :
    C.Rel looped (Exec.variableOf E room name line)
      (Exec.variableOf (E.under limits watcher) room name line) := by
  refine C.read fun h w p t₁ t₂ => ?_
  dsimp only
  split
  · exact C.pure _
  · refine C.bind (C.globalOf room _) fun v => ?_
    split
    · exact C.failAt hline rfl
    · exact C.pure _
  · exact C.failAt hline rfl

theorem globalName {line : Line} (hline : C.Lined line) (v : Value) :
    C.Rel looped (Exec.globalName line v : Exec ω τ₁ String) (Exec.globalName line v) := by
  unfold Exec.globalName
  split
  · exact C.pure _
  · exact C.mismatch hline rfl

theorem decision (role : Role) (name : String) (v : Value) {line : Line} (hline : C.Lined line) :
    C.Rel looped (Exec.decision role name v line : Exec ω τ₁ Value)
      (Exec.decision role name v line) := by
  unfold Exec.decision
  split
  · exact C.mismatch hline rfl
  · exact C.pure _

theorem isOrdinary_unregistered (role : Role) (name : Name) :
    (unregistered role name).isOrdinary = true := by
  cases role <;> rfl

theorem registered (role : Role) (name : Name) {line : Line} (hline : C.Lined line) :
    C.Rel looped (Exec.registered E role name line)
      (Exec.registered (E.under limits watcher) role name line) := by
  have hmissing : ∀ {α : Type}, C.Rel looped
      (Exec.failAt line (unregistered role name) : Exec ω τ₁ α)
      (Exec.failAt line (unregistered role name)) :=
    C.failAt hline (isOrdinary_unregistered role name)
  cases name with
  | word word => exact C.read fun h w p t₁ t₂ => C.guarded hmissing (C.pure _)
  | _ => exact hmissing

theorem failLoose {α : Type} (h : C.strict = true → False) {fault : Fault}
    (hfault : fault.isFinal = false) :
    C.Rel looped (Exec.fail fault : Exec ω τ₁ α) (Exec.fail fault) :=
  C.fail (C.loose (Bool.eq_false_iff.2 h) hfault)

theorem failAtLoose {α : Type} (h : C.strict = true → False) (line : Line) {cause : Cause}
    (hcause : cause.isStepLimit = false) :
    C.Rel looped (Exec.failAt line cause : Exec ω τ₁ α) (Exec.failAt line cause) :=
  C.failLoose h ((Fault.isFor_ofCause line cause).isFinal hcause)

theorem invalidExpression {α : Type} (node : Node) (h : C.strict = true → False) :
    C.Rel looped
      (Exec.quoting node.line (fun _ => node.format) .invalidExpression : Exec ω τ₁ α)
      (Exec.quoting node.line (fun _ => node.format) .invalidExpression) :=
  C.bind (C.ofExcept (C.allows_format fun hs => (h hs).elim)) fun _ => C.failAtLoose h _ rfl

theorem misfit (shape : Shape) {text : Except Fault String} (htext : IsTame text)
    (h : C.strict = true → False) :
    C.Rel looped (Exec.misfit E shape text)
      (Exec.misfit (E.under limits watcher) shape text) := by
  refine C.read fun _ w _ _ _ => C.failLoose h ?_
  refine shape.isFinal_expressionFault (fun kind name fault hmissing => ?_) htext
  obtain ⟨role, -, hrole⟩ := Option.bind_eq_some_iff.1 hmissing
  split at hrole
  · cases hrole
  · cases hrole
    exact (Fault.isOrdinary_iff.1
      ((shape.isFor_faultAt _).isOrdinary (isOrdinary_unregistered role name))).2.2

/-- Whether a node is evaluated alike. -/
def Evaluates (node : Node) : Prop :=
  ∀ (looped : Bool) (room : Nat), C.Rel looped (Exec.evaluate E node room)
    (Exec.evaluate (E.under limits watcher) node room)

theorem eval_of {node : Node} (h : C.Evaluates node) (hnode : C.strict = true → node.IsExpression)
    (heach : node.Each C.Holds) (looped : Bool) (room : Nat) :
    C.Rel looped (Exec.eval E node room) (Exec.eval (E.under limits watcher) node room) :=
  C.enter heach.self hnode room (h looped)

mutual

/-- **Expressions are paired.** -/
theorem evaluate : ∀ node : Node, (C.strict = true → node.IsExpression) → node.Each C.Holds →
    C.Evaluates node
  | .literal _ _ _ _, _, _ => fun _ _ => C.pure _
  | .list items _, hnode, heach => fun looped room =>
      C.within room fun room => C.within room fun room =>
        C.bind (evaluateAll items hnode heach.row looped room) fun _ => C.onHeap _
  | .ident name _, _, heach => fun _ room => C.variableOf room name (C.lined heach.self)
  | .global key _, hnode, heach => fun looped room =>
      have hkey : key.Each C.Holds := heach.sub
      C.within room fun room =>
        C.bind (C.eval_of (evaluate key hnode hkey) hnode hkey looped room) fun v =>
          C.bind (C.globalName (C.lined hkey.self) v) fun name => C.globalOf room name
  | .reference role name args _, hnode, heach => fun looped room =>
      have hline := C.lined heach.self
      C.bind (C.registered role name hline) fun word =>
        C.bind (C.within room fun room => C.within room fun room =>
          evaluateAll args hnode heach.row looped room) fun args =>
          C.bind (C.bind (C.discard (C.consult room _)) fun _ =>
            C.onWorld (.invoke room role word args hline)) fun v => C.decision role word v hline
  | .member target name _, hnode, heach => fun looped room =>
      have htarget : target.Each C.Holds := heach.sub
      C.bind (C.eval_of (evaluate target hnode htarget) hnode htarget looped room) fun v =>
        C.memberOf v name (C.lined heach.self) (C.notWord heach.self)
  | .index target key _, hnode, heach => fun looped room =>
      have htarget := fun h => (hnode h).1
      have hkey := fun h => (hnode h).2
      C.bind (C.eval_of (evaluate target htarget heach.sub) htarget heach.sub looped room) fun t =>
        C.bind (C.eval_of (evaluate key hkey heach.sub) hkey heach.sub looped room) fun k =>
          C.itemOf room t k (C.lined heach.self) (C.allows_format hnode) (C.allows_format htarget)
  | .call callee args _, hnode, heach => fun looped room =>
      have hcallee := fun h => (hnode h).1
      have hline := C.lined heach.self
      C.bind (C.eval_of (evaluate callee hcallee heach.sub) hcallee heach.sub looped room) fun c =>
        C.guarded (C.quoting hline (C.allows_format hcallee) fun _ => rfl)
          (C.bind (C.within room fun room => C.within room fun room =>
            evaluateAll args (fun h => (hnode h).2) heach.row looped room) fun args =>
            C.onWorld (.call room c args hline (C.allows_format hcallee)))
  | .unary op operand _, hnode, heach => fun looped room => by
      have hoperand := fun h => (hnode h).2
      refine C.bind
        (C.eval_of (evaluate operand hoperand heach.sub) hoperand heach.sub looped room) fun v => ?_
      split
      · exact C.bind (C.truthy room v) fun _ => C.pure _
      · exact C.signed op v (C.lined heach.self) (C.allows_format hnode)
  | .binary op left right _, hnode, heach => fun looped room => by
      have hleft := C.eval_of (evaluate left (fun h => (hnode h).2.1) heach.sub)
        (fun h => (hnode h).2.1) heach.sub looped room
      have hright := C.eval_of (evaluate right (fun h => (hnode h).2.2) heach.sub)
        (fun h => (hnode h).2.2) heach.sub looped room
      cases op with
      | and | or =>
          refine C.bind hleft fun a => C.bind (C.truthy room a) fun holds => ?_
          split
          · exact C.pure _
          · exact C.bind hright fun b => C.bind (C.truthy room b) fun _ => C.pure _
      | _ =>
          exact C.bind hleft fun a => C.bind hright fun b =>
            C.binary room _ a b (C.lined heach.self) (C.allows_format hnode)
  | .sign name operand _, hnode, heach => fun looped room =>
      C.bind (C.eval_of (evaluate operand (fun h => (hnode h).elim) heach.sub)
        (fun h => (hnode h).elim) heach.sub looped room) fun v =>
        C.signed .add v (lined_of_loose hnode _) (C.allows_format hnode)
  | .torn first shape, hnode, heach => fun looped room => by
      have hfirst : C.strict = true → first.IsExpression := fun h => (hnode h).elim
      refine C.bind (C.eval_of (evaluate first hfirst heach.sub) hfirst heach.sub looped room)
        fun v => ?_
      have hfail : C.Rel looped (Exec.fail shape.tornFault : Exec ω τ₁ Value)
          (Exec.fail shape.tornFault) :=
        C.failLoose hnode (Fault.isOrdinary_iff.1 shape.isOrdinary_tornFault).2.2
      dsimp only
      split
      · refine C.bind (C.truthy room v) fun holds => ?_
        split
        · exact C.pure _
        · exact hfail
      · refine C.bind (C.truthy room v) fun holds => ?_
        split
        · exact C.pure _
        · exact hfail
      · exact C.guarded (C.quoting (lined_of_loose hnode _) (C.allows_format hfirst) fun _ => rfl)
          hfail
      · exact hfail
  | .other shape _, hnode, _ => fun _ _ => C.misfit shape (Node.isTame_format _) hnode
  | .declare _ _ _, hnode, _ | .assign _ _ _, hnode, _ | .expression _ _, hnode, _
  | .block _ _, hnode, _ | .conditional _ _ _ _, hnode, _ | .repetition _ _ _, hnode, _
  | .iteration _ _ _ _ _, hnode, _ | .leave _, hnode, _ | .next _, hnode, _
  | .cooldown _ _, hnode, _ => fun _ _ => C.invalidExpression _ hnode

theorem evaluateAll : ∀ nodes : List Node, (C.strict = true → Node.AreExpressions nodes) →
    Node.EachOf C.Holds nodes → ∀ (looped : Bool) (room : Nat),
      C.Rel looped (Exec.evaluateAll E nodes room)
        (Exec.evaluateAll (E.under limits watcher) nodes room)
  | [], _, _, _, _ => C.pure _
  | node :: rest, hnodes, heach, looped, room =>
      have hnode := fun h => (hnodes h).1
      C.bind (C.eval_of (evaluate node hnode heach.head) hnode heach.head looped room) fun _ =>
        C.bind (evaluateAll rest (fun h => (hnodes h).2) heach.tail looped room) fun _ => C.pure _

end

/-- **Expressions are paired**, from their visit on. -/
theorem eval {node : Node} (hnode : C.strict = true → node.IsExpression)
    (heach : node.Each C.Holds) (looped : Bool) (room : Nat) :
    C.Rel looped (Exec.eval E node room) (Exec.eval (E.under limits watcher) node room) :=
  C.eval_of (C.evaluate node hnode heach) hnode heach looped room

end ExpressionPairing

namespace Pairing

variable {ω τ₁ τ₂ : Type} {E : Setting ω τ₁} {limits : Limits} {watcher : Option (Watcher ω τ₂)}
  (C : Pairing E limits watcher) {looped : Bool}

/-! ### Loops -/

section Loops

variable {body₁ : Exec ω τ₁ Unit} {body₂ : Exec ω τ₂ Unit} (hbody : C.Rel true body₁ body₂)

include hbody

theorem forEach (name : Name) (items : List Value) :
    C.Rel looped (Exec.forEach name body₁ items) (Exec.forEach name body₂ items) := by
  induction items with
  | nil => exact C.pure _
  | cons v rest ih =>
      refine C.bind (C.setLocal name v) fun _ => C.bind (C.round hbody) fun goesOn => ?_
      split
      · exact ih
      · exact C.pure _

theorem forRange (name : Name) (count : Nat) (first : Int) :
    C.Rel looped (Exec.forRange name body₁ count first)
      (Exec.forRange name body₂ count first) := by
  induction count generalizing first with
  | zero => exact C.pure _
  | succ count ih =>
      refine C.bind (C.onHeap _) fun v => C.bind (C.setLocal name v) fun _ =>
        C.bind (C.round hbody) fun goesOn => ?_
      split
      · exact ih (first + 1)
      · exact C.pure _

end Loops

theorem iterate {body : Node} {room : Nat}
    (hbody : C.Rel true (Exec.nested E body room) (Exec.nested (E.under limits watcher) body room))
    (name : Name) (v : Value) {line : Line} (hline : C.Lined line) :
    C.Rel looped (Exec.iterate E room name v line (Exec.nested E body room))
      (Exec.iterate (E.under limits watcher) room name v line
        (Exec.nested (E.under limits watcher) body room)) := by
  refine C.read fun h w p t₁ t₂ => ?_
  dsimp only
  split
  · exact C.forEach hbody name _
  · exact C.forEach hbody name _
  · exact C.bind (C.onHeap _) fun items => C.forEach hbody name items
  · exact C.items name _ hbody
  · exact C.mismatch hline rfl

/-! ### Statements -/

section Targets

variable {target : Node} (h : C.strict = true → target.IsTarget)

include h

theorem allows_item {α : Type} {result : Except Fault α} (hresult : IsTame result)
    (hok : target.IsTarget → ∃ a, result = .ok a) : FailsOnly C.Allows result := by
  intro fault hfault
  cases hstrict : C.strict with
  | false => exact C.loose hstrict (Fault.isOrdinary_iff.1 (hresult fault hfault)).2.2
  | true =>
      obtain ⟨a, ha⟩ := hok (h hstrict)
      rw [ha] at hfault
      cases hfault

theorem checkTarget :
    C.Rel looped (Exec.checkTarget target : Exec ω τ₁ Unit) (Exec.checkTarget target) := by
  unfold Exec.checkTarget
  split
  · refine C.bind (C.discard (C.ofExcept
      (C.allows_item h (Shape.isTame_item _ _) False.elim))) fun _ => ?_
    split
    · exact C.failLoose h rfl
    · exact C.pure _
  · exact C.pure _

theorem slotOf : C.Rel looped (Exec.slotOf target : Exec ω τ₁ Name) (Exec.slotOf target) := by
  refine C.bind (C.ofExcept (C.allows_item h (Shape.isTame_item _ _) fun htarget => ?_))
    fun _ => C.pure _
  cases target with
  | ident name line | global key line => exact ⟨_, rfl⟩
  | _ => exact htarget.elim

end Targets

theorem rangeBound (v : Value) {line : Line} (hline : C.Lined line) :
    C.Rel looped (Exec.rangeBound v line : Exec ω τ₁ Int) (Exec.rangeBound v line) := by
  unfold Exec.rangeBound
  split
  · exact C.pure _
  · exact C.mismatch hline rfl

theorem setCooldown (room : Nat) (seconds : Value) {line : Line} (hline : C.Lined line) :
    C.Rel looped (Exec.setCooldown E room seconds line)
      (Exec.setCooldown (E.under limits watcher) room seconds line) := by
  unfold Exec.setCooldown
  split
  · refine C.guardedBy (C.textOf room seconds) (fun _ => C.mismatch hline rfl) ?_
    refine C.bind (C.discard (C.consult room _)) fun _ => C.read fun h w p t₁ t₂ => ?_
    dsimp only [Setting.under]
    split
    · exact C.bind (C.onHeap _) fun mark => C.coolDown _ mark
    · exact C.fail (C.blunt (.number _))
  · exact C.bind (C.textOf room seconds) fun _ => C.mismatch hline rfl

theorem nested_of {node : Node} (hnode : C.strict = true → node.IsStatement looped)
    (heach : node.Each C.Holds) (room : Nat)
    (h : ∀ room, C.Rel looped (Exec.execute E node room)
      (Exec.execute (E.under limits watcher) node room)) :
    C.Rel looped (Exec.nested E node room) (Exec.nested (E.under limits watcher) node room) :=
  C.within room fun room =>
    C.begin heach.self (fun hstrict => .inr ⟨looped, hnode hstrict⟩) room h

mutual

/-- **Statements are paired.** -/
theorem execute : ∀ (node : Node) (looped : Bool),
    (C.strict = true → node.IsStatement looped) → node.Each C.Holds → ∀ room : Nat,
      C.Rel looped (Exec.execute E node room)
        (Exec.execute (E.under limits watcher) node room)
  | .declare name none _, _, _, _, _ => C.setLocal name .null
  | .declare name (some value) _, looped, hnode, heach, room =>
      C.bind (C.eval hnode heach.sub looped room) fun v => C.setLocal name v
  | .assign target value line, looped, hnode, heach, room => by
      have htarget := fun h => (hnode h).1
      have heachTarget : target.Each C.Holds := heach.sub
      have hvalue := C.eval (fun h => (hnode h).2) (heach.sub : value.Each C.Holds) looped room
      cases target with
      | global key l =>
          have hkey : key.Each C.Holds := heachTarget.sub
          exact C.bind (C.within room fun room => C.bind (C.eval htarget hkey looped room) fun v =>
            C.globalName (C.lined hkey.self) v) fun name =>
              C.bind hvalue fun v => C.bind (C.discard (C.consult room _)) fun _ =>
                C.store name v
      | _ =>
          exact C.bind (C.checkTarget htarget) fun _ => C.bind hvalue fun v =>
            C.bind (C.slotOf htarget) fun name => C.setLocal name v
  | .expression value _, looped, hnode, heach, room =>
      C.discard (C.eval hnode heach.sub looped room)
  | .conditional test body none _, looped, hnode, heach, room => by
      refine C.bind (C.eval (fun h => (hnode h).1) heach.sub looped room) fun v =>
        C.bind (C.truthy room v) fun holds => ?_
      have hbody : C.strict = true → body.IsStatement looped := fun h => (hnode h).2
      split
      · exact C.nested_of hbody heach.sub room (execute body looped hbody heach.sub)
      · exact C.pure _
  | .conditional test body (some otherwise) _, looped, hnode, heach, room => by
      refine C.bind (C.eval (fun h => (hnode h).1) heach.sub looped room) fun v =>
        C.bind (C.truthy room v) fun holds => ?_
      have hbody : C.strict = true → body.IsStatement looped := fun h => (hnode h).2.1
      have hotherwise : C.strict = true → otherwise.IsStatement looped := fun h => (hnode h).2.2
      split
      · exact C.nested_of hbody heach.sub room (execute body looped hbody heach.sub)
      · exact C.nested_of hotherwise heach.sub room
          (execute otherwise looped hotherwise heach.sub)
  | .block body _, looped, hnode, heach, room =>
      C.enterBlock heach.self room (execAll body looped hnode heach.row)
  | .repetition test body _, looped, hnode, heach, room =>
      have hbody := fun h => (hnode h).2
      C.repetition (C.eval (fun h => (hnode h).1) heach.sub looped room)
        (C.nested_of hbody heach.sub room (execute body true hbody heach.sub))
  | .iteration name source none body _, looped, hnode, heach, room =>
      have hbody := fun h => (hnode h).2
      C.bind (C.eval (fun h => (hnode h).1) heach.sub looped room) fun v =>
        C.iterate (C.nested_of hbody heach.sub room (execute body true hbody heach.sub)) name v
          (C.lined heach.self)
  | .iteration name source (some bound) body _, looped, hnode, heach, room =>
      have hbody := fun h => (hnode h).2.2
      have hline := C.lined heach.self
      C.bind (C.eval (fun h => (hnode h).1) heach.sub looped room) fun first =>
        C.bind (C.eval (fun h => (hnode h).2.1) heach.sub looped room) fun last =>
          C.bind (C.rangeBound first hline) fun first => C.bind (C.rangeBound last hline) fun last =>
            C.forRange (C.nested_of hbody heach.sub room (execute body true hbody heach.sub)) name _
              first
  | .cooldown seconds _, looped, hnode, heach, room =>
      C.bind (C.eval hnode heach.sub looped room) fun v => C.setCooldown room v (C.lined heach.self)
  | .leave _, looped, hnode, _, _ => by
      cases hstrict : C.strict with
      | false => exact C.fail (C.loose hstrict rfl)
      | true =>
          obtain rfl : looped = true := hnode hstrict
          exact C.leave
  | .next _, looped, hnode, _, _ => by
      cases hstrict : C.strict with
      | false => exact C.fail (C.loose hstrict rfl)
      | true =>
          obtain rfl : looped = true := hnode hstrict
          exact C.next
  | .literal _ _ _ _, _, hnode, _, _ | .list _ _, _, hnode, _, _ | .ident _ _, _, hnode, _, _
  | .global _ _, _, hnode, _, _ | .reference _ _ _ _, _, hnode, _, _ | .member _ _ _, _, hnode, _, _
  | .index _ _ _, _, hnode, _, _ | .call _ _ _, _, hnode, _, _ | .unary _ _ _, _, hnode, _, _
  | .sign _ _ _, _, hnode, _, _ | .binary _ _ _ _, _, hnode, _, _ | .torn _ _, _, hnode, _, _ =>
      C.failAtLoose hnode _ rfl
  | .other shape _, _, hnode, _, _ => C.failLoose hnode shape.isFinal_statementFault

theorem execAll : ∀ (nodes : List Node) (looped : Bool),
    (C.strict = true → Node.AreStatements looped nodes) → Node.EachOf C.Holds nodes → ∀ room : Nat,
      C.Rel looped (Exec.execAll E nodes room)
        (Exec.execAll (E.under limits watcher) nodes room)
  | [], _, _, _, _ => C.pure _
  | node :: rest, looped, hnodes, heach, room =>
      have hnode := fun h => (hnodes h).1
      C.bind
        (C.begin heach.head.self (fun h => .inr ⟨looped, hnode h⟩) room
          (execute node looped hnode heach.head))
        fun _ => execAll rest looped (fun h => (hnodes h).2) heach.tail room

end

end Pairing

end Exec

end TriggerEngine
