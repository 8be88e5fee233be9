/-
**Coupled runs.**

Two runs under the same limits differ in their watchers only.  A coupling is a relation between
computations under two watchers that the steps of a run respect; it may know something about the
worlds that the runs come to, and it bears with every ordinary fault.  Since the limits are the
same, loops have the same number of rounds, and a coupling is a pairing.

Main definitions:

* `Scene` — what two coupled runs share;
* `Exec.Coupling` — relations that the steps of a run respect;
* `Exec.Coupling.pairing` — a coupling as a pairing.

Main results:

* `Exec.Coupling.evaluate`, `Exec.Coupling.eval` — coupled expressions;
* `Exec.Coupling.execute`, `Exec.Coupling.execAll` — coupled statements.
-/

import TriggerEngine.Proofs.Run.Pairing

set_option autoImplicit false

namespace TriggerEngine

/-- What coupled runs share: all of a setting but the watcher. -/
structure Scene (ω : Type) where
  /-- What the runs need of the world. -/
  binding : Binding ω
  /-- What the runs are held to. -/
  limits : Limits
  /-- What calls of the host are about. -/
  context : Value

/-- The setting of a run with a watcher. -/
def Scene.watched {ω τ : Type} (S : Scene ω) (watcher : Option (Watcher ω τ)) : Setting ω τ :=
  ⟨S.binding, S.limits, watcher, S.context⟩

namespace Exec

/-- A relation between computations under two watchers that the steps of a run respect; the truth
value says whether the computations stand inside a loop. -/
structure Coupling {ω τ₁ τ₂ : Type} (S : Scene ω) (w₁ : Option (Watcher ω τ₁))
    (w₂ : Option (Watcher ω τ₂)) where
  /-- The relation. -/
  Rel : {α : Type} → Bool → Exec ω τ₁ α → Exec ω τ₂ α → Prop
  /-- The faults with which coupled computations may fail. -/
  Allows : Fault → Prop
  /-- Whether only well-formed trees are coupled. -/
  strict : Bool
  ordinary : ∀ {fault}, fault.isOrdinary = true → Allows fault
  loose : strict = false → ∀ {fault}, fault.isFinal = false → Allows fault
  pure : ∀ {α : Type} {looped : Bool} (a : α), Rel looped (Pure.pure a) (Pure.pure a)
  bind : ∀ {α β : Type} {looped : Bool} {x₁ : Exec ω τ₁ α} {x₂ : Exec ω τ₂ α}
    {f₁ : α → Exec ω τ₁ β} {f₂ : α → Exec ω τ₂ β}, Rel looped x₁ x₂ →
    (∀ a, Rel looped (f₁ a) (f₂ a)) → Rel looped (x₁ >>= f₁) (x₂ >>= f₂)
  read : ∀ {α : Type} {looped : Bool} {f₁ : State ω τ₁ → Exec ω τ₁ α}
    {f₂ : State ω τ₂ → Exec ω τ₂ α},
    (∀ h w p t₁ t₂, Rel looped (f₁ ⟨h, w, p, t₁⟩) (f₂ ⟨h, w, p, t₂⟩)) →
    Rel looped (get >>= f₁) (get >>= f₂)
  fail : ∀ {α : Type} {looped : Bool} {fault : Fault}, Allows fault →
    Rel looped (Exec.fail fault : Exec ω τ₁ α) (Exec.fail fault)
  leave : ∀ {α : Type}, Rel true (Exec.fail (.leave "" false) : Exec ω τ₁ α)
    (Exec.fail (.leave "" false))
  next : ∀ {α : Type}, Rel true (Exec.fail (.next "" false) : Exec ω τ₁ α)
    (Exec.fail (.next "" false))
  onHeap : ∀ {α : Type} {looped : Bool} (f : Heap → α × Heap),
    Rel looped (Exec.onHeap f) (Exec.onHeap f)
  setLocal : ∀ {looped : Bool} (name : Name) (v : Value),
    Rel looped (Exec.setLocal name v) (Exec.setLocal name v)
  coolDown : ∀ {looped : Bool} (time : Number) (mark : Mark),
    Rel looped (onProgress fun p => { p with cooldownEnd := some time, cooldownMark := mark })
      (onProgress fun p => { p with cooldownEnd := some time, cooldownMark := mark })
  onWorld : ∀ {α : Type} {looped : Bool} {f : Heap → ω → Except Fault α × Heap × ω},
    Turn S.binding S.context Allows f → Rel looped (Exec.onWorld f) (Exec.onWorld f)
  store : ∀ {looped : Bool} (name : String) (v : Value),
    Rel looped (Exec.onWorld (storeIn S.binding name v)) (Exec.onWorld (storeIn S.binding name v))
  visit : ∀ {looped : Bool} (node : Node) (room : Nat), (strict = true → node.IsWellFormed) →
    Rel looped (Exec.visit (S.watched w₁) node room) (Exec.visit (S.watched w₂) node room)
  deeper : ∀ {α : Type} {looped : Bool} {most : Nat} {limit : Unit → Fault}
    {x₁ : Exec ω τ₁ α} {x₂ : Exec ω τ₂ α}, Allows (limit ()) → Rel looped x₁ x₂ →
    Rel looped (Exec.deeper most limit x₁) (Exec.deeper most limit x₂)
  round : ∀ {looped : Bool} {x₁ : Exec ω τ₁ Unit} {x₂ : Exec ω τ₂ Unit}, Rel true x₁ x₂ →
    Rel looped (Exec.round x₁) (Exec.round x₂)

namespace Coupling

variable {ω τ₁ τ₂ : Type} {S : Scene ω} {w₁ : Option (Watcher ω τ₁)}
  {w₂ : Option (Watcher ω τ₂)} (C : Coupling S w₁ w₂) {looped : Bool}

/-- One coupled computation after the other. -/
def stepwise : Stepwise ω τ₁ τ₂ where
  Rel := C.Rel
  pure := C.pure
  bind := C.bind
  noRoom := C.fail (C.ordinary rfl)
  setLocal := C.setLocal
  round := C.round

theorem rounds {α : Type} {f₁ : Nat → Exec ω τ₁ α} {f₂ : Nat → Exec ω τ₂ α}
    (h : ∀ fuel, C.Rel looped (f₁ fuel) (f₂ fuel)) :
    C.Rel looped (Exec.rounds (S.watched w₁) >>= f₁) (Exec.rounds (S.watched w₂) >>= f₂) :=
  C.bind (C.read fun _ _ _ _ _ => C.pure _) h

/-! ### Whole programs -/

/-- **A coupling is a pairing.** -/
def pairing : Pairing (S.watched w₁) S.limits w₂ where
  Rel := C.Rel
  Allows := C.Allows
  Holds _ := True
  strict := C.strict
  blunt h := C.ordinary h.isOrdinary
  cause _ h := C.ordinary (Fault.isOrdinary_ofCause _ h)
  notWord _ _ := C.ordinary rfl
  loose := C.loose
  pure := C.pure
  bind := C.bind
  read := C.read
  fail := C.fail
  leave := C.leave
  next := C.next
  onHeap := C.onHeap
  setLocal := C.setLocal
  coolDown := C.coolDown
  onWorld := C.onWorld
  store := C.store
  visit room _ h := C.visit _ room h
  deeper hwhich _ hx := by
    refine C.deeper (C.ordinary (Node.isOrdinary_faultAt _ ?_)) hx
    rcases hwhich with rfl | rfl <;> rfl
  round := C.round
  repetition htest hbody := C.rounds
    (C.stepwise.repeatWhile hbody (C.bind htest fun _ =>
      C.bind (C.onWorld (.consult _ _)) fun _ => C.read fun _ _ _ _ _ => C.pure _))
  items name id _ _ hbody := C.rounds fun fuel =>
    C.stepwise.forItems hbody (S.watched w₁) (S.watched w₂) (fun i => C.onWorld (.item _ id i)) name
      fuel 0

/-- **Expressions are coupled.** -/
theorem evaluate (node : Node) (hnode : C.strict = true → node.IsExpression) (looped : Bool)
    (room : Nat) :
    C.Rel looped (Exec.evaluate (S.watched w₁) node room)
      (Exec.evaluate (S.watched w₂) node room) :=
  C.pairing.evaluate node hnode (fun _ _ => trivial) looped room

/-- **Expressions are coupled**, from their visit on. -/
theorem eval {node : Node} (hnode : C.strict = true → node.IsExpression) (looped : Bool)
    (room : Nat) :
    C.Rel looped (Exec.eval (S.watched w₁) node room) (Exec.eval (S.watched w₂) node room) :=
  C.pairing.eval hnode (fun _ _ => trivial) looped room

/-- **Statements are coupled.** -/
theorem execute (node : Node) (looped : Bool) (hnode : C.strict = true → node.IsStatement looped)
    (room : Nat) :
    C.Rel looped (Exec.execute (S.watched w₁) node room)
      (Exec.execute (S.watched w₂) node room) :=
  C.pairing.execute node looped hnode (fun _ _ => trivial) room

theorem execAll (nodes : List Node) (looped : Bool)
    (hnodes : C.strict = true → Node.AreStatements looped nodes) (room : Nat) :
    C.Rel looped (Exec.execAll (S.watched w₁) nodes room)
      (Exec.execAll (S.watched w₂) nodes room) :=
  C.pairing.execAll nodes looped hnodes (fun _ _ => trivial) room

theorem exec {node : Node} (looped : Bool) (hnode : C.strict = true → node.IsStatement looped)
    (room : Nat) :
    C.Rel looped (Exec.exec (S.watched w₁) node room) (Exec.exec (S.watched w₂) node room) :=
  C.pairing.begin trivial (fun hstrict => .inr ⟨looped, hnode hstrict⟩) room
    (C.execute node looped hnode)

end Coupling

end Exec

end TriggerEngine
