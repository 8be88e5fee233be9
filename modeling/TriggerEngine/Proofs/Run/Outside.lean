/-
**What happens outside of a run.**

A run changes the world by calls, by inquiries, by reading items of sequences and by setting
globals; its watcher changes it too.  Faults are made there: those of calls are wrapped unless they
pass, those of inquiries and items are not.  A sequence may be gone through to its end, and then
there may be no end.

All that a run has the world do is one of a few turns, so what is said here of turns holds for every
part of every run.

Main definitions:

* `Binding.Reads` — going through a sequence comes to an end;
* `Setting.Reaches`, `Setting.Raises` — the worlds that a run can come to, and the faults made
  there;
* `Setting.Returns` — all that happens there comes to an end;
* `Setting.Admits` — kinds of faults with which turns may fail;
* `Exec.Replies` — replies of the world that stay in these worlds and fail in some ways only.

Main results:

* `Binding.fold_eq_some_iff` — a sequence is gone through if that comes to an end;
* `Exec.Turn.changes` — a turn changes the world step by step;
* `Exec.Turn.replies` — **every turn of a run is such a reply**.
-/

import Mathlib.Logic.Relation
import TriggerEngine.Proofs.Host.Keeping
import TriggerEngine.Proofs.Run.Coupling
import TriggerEngine.Proofs.Run.Stepping

set_option autoImplicit false

namespace TriggerEngine

variable {ω τ α β : Type}

/-- A world in which nothing happens and every name is registered. -/
def Binding.still : Binding Unit where
  label _ _ := ""
  isRegistered _ _ _ := true
  invoke _ _ _ _ _ h w := (.ok .null, h, w)
  call _ _ _ h w := (.ok .null, h, w)
  readAttribute _ _ _ := .ok .null
  item? _ _ _ h w := (.ok none, h, w)
  consult _ _ h w := (.ok none, h, w)
  further _ _ _ := none
  memory _ := 0
  readGlobal _ _ := .null
  writeGlobal _ _ w := w
  clock _ := .int 0

/-! ### Sequences -/

/-- Going through a sequence from place `i` on comes to an end. -/
inductive Binding.Reads (binding : Binding ω) (room id : Nat) (take : α → Value → Heap → α × Heap) :
    Nat → α → Heap → ω → Except Fault α × Heap × ω → Prop
  | fails {i : Nat} {a : α} {h h' : Heap} {w w' : ω} {fault : Fault} :
      binding.item? room id i h w = (.error fault, h', w') →
      Reads binding room id take i a h w (.error fault, h', w')
  | ends {i : Nat} {a : α} {h h' : Heap} {w w' : ω} :
      binding.item? room id i h w = (.ok none, h', w') →
      Reads binding room id take i a h w (.ok a, h', w')
  | goesOn {i : Nat} {a : α} {v : Value} {h h' : Heap} {w w' : ω} {r : Except Fault α × Heap × ω} :
      binding.item? room id i h w = (.ok (some v), h', w') →
      Reads binding room id take (i + 1) (take a v h').1 (take a v h').2 w' r →
      Reads binding room id take i a h w r

theorem Binding.fold_eq_some_iff {binding : Binding ω} {room id : Nat}
    {take : α → Value → Heap → α × Heap} {i : Nat} {a : α} {h : Heap} {w : ω}
    {r : Except Fault α × Heap × ω} :
    binding.fold room id take i a h w = some r ↔ binding.Reads room id take i a h w r := by
  constructor
  · refine fold.partial_correctness binding room id take
      (fun i a h w r => binding.Reads room id take i a h w r) ?_ i a h w r
    intro fold ih i a h w r hr
    split at hr
    · cases hr
      exact .fails ‹_›
    · cases hr
      exact .ends ‹_›
    · exact .goesOn ‹_› (ih _ _ _ _ _ hr)
  · intro hreads
    induction hreads with
    | fails hitem | ends hitem => rw [fold, hitem]
    | goesOn hitem _ ih => rw [fold, hitem, ← ih]

theorem Binding.Reads.congr {b b' : Binding ω} (h : b'.item? = b.item?) {room id : Nat}
    {take : α → Value → Heap → α × Heap} {i : Nat} {a : α} {heap : Heap} {w : ω}
    {r : Except Fault α × Heap × ω} (hreads : b.Reads room id take i a heap w r) :
    b'.Reads room id take i a heap w r := by
  induction hreads with
  | fails hitem => exact .fails (by rw [h, hitem])
  | ends hitem => exact .ends (by rw [h, hitem])
  | goesOn hitem _ ih => exact .goesOn (by rw [h, hitem]) ih

theorem Binding.fold_congr {b b' : Binding ω} (h : b'.item? = b.item?) (room id : Nat)
    (take : α → Value → Heap → α × Heap) (i : Nat) (a : α) (heap : Heap) (w : ω) :
    b'.fold room id take i a heap w = b.fold room id take i a heap w := by
  refine Option.ext fun r => ?_
  rw [fold_eq_some_iff, fold_eq_some_iff]
  exact ⟨.congr h.symm, .congr h⟩

/-- Whether a sequence can be gone through in a way that does not come to an end. -/
def Binding.IsEndless (binding : Binding ω) (room id : Nat) (h : Heap) (w : ω) : Prop :=
  ∃ (α : Type) (take : α → Value → Heap → α × Heap) (a : α),
    ∀ r, ¬binding.Reads room id take 0 a h w r

/-! ### Worlds and faults -/

namespace Setting

/-- The worlds that a run can come to from one: the host changes it, the globals that are set do,
and the watcher. -/
inductive Reaches (env : Setting ω τ) (start : ω) : ω → Prop
  | start : Reaches env start start
  | turn {w w' : ω} :
      env.binding.Changes env.context w w' → Reaches env start w → Reaches env start w'
  | write {w : ω} (name : String) (v : Value) :
      Reaches env start w → Reaches env start (env.binding.writeGlobal name v w)
  | watch {w : ω} {watcher : Watcher ω τ} (room : Nat) (node : Node) (p : Progress) (h : Heap)
      (t : τ) : env.watcher = some watcher → Reaches env start w →
      Reaches env start (watcher room node p h w t).2.1

/-- The faults that are made outside of a run, in the worlds that it can come to. -/
inductive Raises (env : Setting ω τ) (start : ω) : Fault → Prop
  /-- By what is registered under a name. -/
  | invoke {room : Nat} {role : Role} {name : String} {args : List Value} {h : Heap} {w : ω}
      {fault : Fault} : env.Reaches start w →
      (env.binding.invoke room role name args env.context h w).1 = .error fault →
      Raises env start fault
  /-- By a callable. -/
  | call {room id : Nat} {args : List Value} {h : Heap} {w : ω} {fault : Fault} :
      env.Reaches start w → (env.binding.call room id args h w).1 = .error fault →
      Raises env start fault
  /-- By an attribute. -/
  | member {id : Nat} {name : String} {w : ω} {fault : Fault} :
      env.Reaches start w → env.binding.readAttribute id name w = .error fault →
      Raises env start fault
  /-- At an inquiry. -/
  | consult {room : Nat} {inquiry : Inquiry} {h : Heap} {w : ω} {fault : Fault} :
      env.Reaches start w → (env.binding.consult room inquiry h w).1 = .error fault →
      Raises env start fault
  /-- By a sequence. -/
  | item {room id i : Nat} {h : Heap} {w : ω} {fault : Fault} :
      env.Reaches start w → (env.binding.item? room id i h w).1 = .error fault →
      Raises env start fault
  /-- By a sequence that has no end. -/
  | endless {room id : Nat} {h : Heap} {w : ω} :
      env.Reaches start w → env.binding.IsEndless room id h w → Raises env start .unreturned
  /-- By the watcher. -/
  | watch {watcher : Watcher ω τ} {room : Nat} {node : Node} {p : Progress} {h : Heap} {w : ω}
      {t : τ} {fault : Fault} : env.watcher = some watcher → env.Reaches start w →
      (watcher room node p h w t).1 = .error fault → Raises env start fault

/-- A kind of faults with which turns to the world may fail: those of operations on values, those
made outside that calls let pass, and those of inquiries and items. -/
structure Admits (env : Setting ω τ) (start : ω) (P : Fault → Prop) : Prop where
  blunt : ∀ {fault : Fault}, fault.IsBlunt → P fault
  passed : ∀ {fault : Fault}, env.Raises start fault → fault.passes = true → P fault
  consult : ∀ {room inquiry h w fault}, env.Reaches start w →
    (env.binding.consult room inquiry h w).1 = .error fault → P fault
  item : ∀ {room id i h w fault}, env.Reaches start w →
    (env.binding.item? room id i h w).1 = .error fault → P fault

end Setting

/-! ### Faults of calls -/

theorem Fault.passes_of_isPlain {fault : Fault} (h : fault.isPlain = true) :
    fault.passes = false := by
  cases fault with
  | plain => rfl
  | _ => cases h

theorem Fault.failsBluntly_wording (fault : Fault) : FailsOnly Fault.IsBlunt fault.wording := by
  cases fault with
  | wordless => exact .error .digits
  | _ => exact .ok _

namespace Member

/-- A result that fails in plain ways only. -/
abbrev FailsPlainly (result : Except Fault α) : Prop :=
  FailsOnly (fun fault => fault.isPlain = true) result

theorem failsPlainly_joinItems (text : Value) (sep : String) (items : List Value) (h : Heap) :
    FailsPlainly (joinItems text sep items h).1 := by
  unfold joinItems
  split
  · exact .error rfl
  · exact .ok _

theorem failsPlainly_joinAll (text : Value) (sep : String) (args : List Value) (h : Heap) :
    FailsPlainly (joinAll text sep args h).1 := by
  unfold joinAll
  split
  · split
    · exact .error rfl
    · exact failsPlainly_joinItems _ _ _ _
  · exact .error rfl

theorem failsPlainly_extendBy (ref : Nat) (args : List Value) (h : Heap) :
    FailsPlainly (extendBy ref args h).1 := by
  unfold extendBy
  split
  · split
    · exact .error rfl
    · exact .ok _
  · exact .error rfl

theorem failsPlainly_call (labels : Heap.Labels) (room : Nat) (receiver : Value) (member : Member)
    (args : List Value) (h : Heap) : FailsPlainly (member.call labels room receiver args h).1 := by
  unfold Member.call
  split
  · split
    · exact .error rfl
    · exact .ok _
  · exact failsPlainly_joinAll _ _ _ _
  · split
    · exact .error rfl
    · exact .ok _
  · split
    · exact .error rfl
    · exact .ok _
  · exact Refusal.raise_isPlain _
  · exact failsPlainly_extendBy _ _ _
  · exact Refusal.raise_isPlain _
  · exact Refusal.raise_isPlain _
  · exact Refusal.raise_isPlain _

end Member

namespace Exec

/-! ### Turns change the world step by step -/

section Changes

variable {binding : Binding ω} {context : Value}

theorem Reads.changes {room id : Nat} {take : α → Value → Heap → α × Heap} {i : Nat} {a : α}
    {h : Heap} {w : ω} {r : Except Fault α × Heap × ω}
    (hreads : binding.Reads room id take i a h w r) :
    Relation.ReflTransGen (binding.Changes context) w r.2.2 := by
  have hitems : ∀ {i h w result h' w'}, binding.item? room id i h w = (result, h', w') →
      binding.Changes context w w' := by
    intro i h w result h' w' hitem
    have hchange : binding.Changes context w (binding.item? room id i h w).2.2 := .item room id i h w
    rwa [hitem] at hchange
  induction hreads with
  | fails hitem | ends hitem => exact .single (hitems hitem)
  | goesOn hitem _ ih => exact .head (hitems hitem) ih

theorem readOut_changes (room id : Nat) (take : α → Value → Heap → α × Heap) (a : α) (h : Heap)
    (w : ω) :
    Relation.ReflTransGen (binding.Changes context) w
      (readOut (binding.fold room id take 0 a h w) h w).2.2 := by
  cases hfold : binding.fold room id take 0 a h w with
  | none => exact .refl
  | some r => exact Reads.changes (Binding.fold_eq_some_iff.1 hfold)

theorem callMember_changes (room : Nat) (receiver : Value) (member : Member) (args : List Value)
    (h : Heap) (w : ω) :
    Relation.ReflTransGen (binding.Changes context) w
      (callMember binding room receiver member args h w).2.2 := by
  unfold callMember
  split
  · exact readOut_changes room _ _ _ h w
  · rename_i id
    have hout := @readOut_changes ω (List Value) binding context room id
      (fun items v h => (items ++ [v], h)) [] h w
    unfold joinFrom
    split <;> rename_i heq <;> rw [heq] at hout <;> exact hout
  · exact .refl

theorem Turn.changes {P : Fault → Prop} {f : Heap → ω → Except Fault α × Heap × ω}
    (hturn : Turn binding context P f) (h : Heap) (w : ω) :
    Relation.ReflTransGen (binding.Changes context) w (f h w).2.2 := by
  cases hturn with
  | invoke room role name args => exact .single (.invoke room role name args h w)
  | call room callee args =>
      cases callee with
      | fn id => exact .single (.call room id args h w)
      | method receiver member => exact callMember_changes room receiver member args h w
      | _ => exact .refl
  | member id name => exact .refl
  | consult room inquiry => exact .single (.consult room inquiry h w)
  | item room id i => exact .single (.item room id i h w)

theorem Turn.keeps {P : Fault → Prop} {f : Heap → ω → Except Fault α × Heap × ω}
    (hturn : Turn binding context P f) {I : ω → Prop}
    (hkeeps : ∀ {w w'}, binding.Changes context w w' → I w → I w') (h : Heap) {w : ω} (hw : I w) :
    I (f h w).2.2 := by
  generalize hw' : (f h w).2.2 = w'
  have hchanges := hw' ▸ hturn.changes h w
  clear hw'
  induction hchanges with
  | refl => exact hw
  | tail _ hchange ih => exact hkeeps hchange ih

end Changes

/-! ### Turns fail in few ways -/

/-- Replies of the world that lead to worlds of a run and that fail only with faults of some
kind. -/
def Replies (env : Setting ω τ) (start : ω) (P : Fault → Prop)
    (f : Heap → ω → Except Fault α × Heap × ω) : Prop :=
  ∀ h w, env.Reaches start w → env.Reaches start (f h w).2.2 ∧ FailsOnly P (f h w).1

section Calls

variable {env : Setting ω τ} {start : ω} {P : Fault → Prop} {line : Line}

theorem Reads.raises {room id : Nat} {take : α → Value → Heap → α × Heap} {i : Nat} {a : α} {h : Heap}
    {w : ω} {r : Except Fault α × Heap × ω} (hreads : env.binding.Reads room id take i a h w r)
    (hw : env.Reaches start w) : FailsOnly (env.Raises start) r.1 := by
  induction hreads with
  | fails hitem => exact .error (.item hw (congrArg Prod.fst hitem))
  | ends hitem => exact .ok _
  | @goesOn i a v h h' w w' r hitem _ ih =>
      have hreach := hw.turn (.item room id i h w)
      rw [hitem] at hreach
      exact ih hreach

theorem readOut_raises (room id : Nat) (take : α → Value → Heap → α × Heap) (a : α) (h : Heap) {w : ω}
    (hw : env.Reaches start w) :
    FailsOnly (env.Raises start) (readOut (env.binding.fold room id take 0 a h w) h w).1 := by
  cases hfold : env.binding.fold room id take 0 a h w with
  | none =>
      have hendless : env.binding.IsEndless room id h w := by
        refine ⟨α, take, a, fun r hreads => ?_⟩
        cases hfold.symm.trans (Binding.fold_eq_some_iff.2 hreads)
      exact .error (.endless hw hendless)
  | some r => exact Reads.raises (Binding.fold_eq_some_iff.1 hfold) hw

theorem callMember_raises (room : Nat) (receiver : Value) (member : Member) (args : List Value)
    (h : Heap) {w : ω} (hw : env.Reaches start w) :
    FailsOnly (fun fault => fault.isPlain = true ∨ env.Raises start fault)
      (callMember env.binding room receiver member args h w).1 := by
  unfold callMember
  split
  · exact fun fault hfault => .inr (readOut_raises room _ _ _ h hw fault hfault)
  · rename_i id
    have hout := readOut_raises room id (fun items v h => (items ++ [v], h)) [] h hw
    unfold joinFrom
    split <;> rename_i heq <;> rw [heq] at hout
    · exact .error (.inr (hout _ rfl))
    · exact fun fault hfault => .inl (Member.failsPlainly_joinItems _ _ _ _ fault hfault)
  · exact fun fault hfault => .inl (Member.failsPlainly_call _ _ _ _ _ _ fault hfault)

variable (hP : env.Admits start P)
  (hline : ∀ cause : Cause, cause.isOrdinary = true → P (.ofCause line cause))

include hP hline

theorem failsOnly_wrapped {name : Except Fault String} (hname : FailsOnly P name)
    {result : Except Fault α}
    (h : FailsOnly (fun fault => fault.isPlain = true ∨ env.Raises start fault) result) :
    FailsOnly P (result.mapError (wrapped name line)) := by
  cases result with
  | ok a => exact .ok a
  | error fault =>
      refine .error ?_
      unfold wrapped
      split
      · rename_i hpasses
        rcases h fault rfl with hplain | hraises
        · rw [Fault.passes_of_isPlain hplain] at hpasses
          cases hpasses
        · exact hP.passed hraises hpasses
      · split
        · exact hline _ rfl
        · rename_i unwritable
          exact hname unwritable rfl
        · rename_i hwording
          exact hP.blunt (Fault.failsBluntly_wording fault _ hwording)

theorem attributeFault_of {name : String} {fault : Fault} (hfault : env.Raises start fault) :
    P (attributeFault name line fault) := by
  unfold attributeFault
  split
  · exact hline _ rfl
  · split
    · rename_i hcaught
      refine hP.passed hfault ?_
      rw [Fault.passes, hcaught, Bool.true_or]
    · split
      · exact hline _ rfl
      · rename_i hwording
        exact hP.blunt (Fault.failsBluntly_wording fault _ hwording)

omit hline in
/-- **Every turn of a run is a reply** that stays in its worlds. -/
theorem Turn.replies {f : Heap → ω → Except Fault α × Heap × ω}
    (hturn : Turn env.binding env.context P f) : Replies env start P f := by
  intro h w hw
  refine ⟨hturn.keeps (fun hchange hw => .turn hchange hw) h hw, ?_⟩
  cases hturn with
  | invoke room role name args hline =>
      exact failsOnly_wrapped hP hline (.ok name) fun _ hfault => .inr (.invoke hw hfault)
  | call room callee args hline hexpression =>
      refine failsOnly_wrapped hP hline hexpression ?_
      cases callee with
      | fn id => exact fun _ hfault => .inr (.call hw hfault)
      | method receiver member => exact callMember_raises room receiver member args h hw
      | _ => exact .error (.inl rfl)
  | member id name hline =>
      show FailsOnly P ((env.binding.readAttribute id name w).mapError _)
      cases hread : env.binding.readAttribute id name w with
      | ok v => exact .ok v
      | error fault => exact .error (attributeFault_of hP hline (.member hw hread))
  | consult room inquiry => exact fun _ hfault => hP.consult hw hfault
  | item room id i => exact fun _ hfault => hP.item hw hfault

end Calls

end Exec

end TriggerEngine
