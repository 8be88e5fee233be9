/-
**What a manager keeps.**

Whatever is done with a manager changes it in a few ways only: entries and messages are written,
runs are handed over, numbers are put into the store, the host changes, the manager is shut down.
A property that all of these keep is kept by every activation.  That takes an induction, since a
run may lead into further runs; it is made here once, on how deep runs can be nested.

From a manager that starts runs at once and asks the event who is behind it, one gets to such
managers only, and all that their stores hold is numbers.

Main definitions:

* `Manager.Lasting` — properties that the manager keeps;
* `Manager.IsRegular` — managers of one kind whose stores hold numbers;
* `Manager.Reachable` — what a manager may come to.

Main results:

* `Manager.Lasting.keeps` — what lasts is kept by whatever routines ask for;
* `Manager.Lasting.activate`, `Manager.Lasting.fire` — and by activations;
* `Manager.Reachable.regular` — **one gets to regular managers only**.
-/

import TriggerEngine.Proofs.Manager.Gating

set_option autoImplicit false

namespace TriggerEngine

namespace Cooldowns

/-- Whether all that a store holds is numbers. -/
def IsTimed (c : Cooldowns) : Prop :=
  ∀ k, ∃ held, c.Holds k held

theorem isTimed_empty : IsTimed {} :=
  fun _ => ⟨none, rfl⟩

theorem IsTimed.put {c : Cooldowns} (h : c.IsTimed) (actor : Value) (stop : Number) (mark : Mark) :
    IsTimed ⟨Heap.entryPut c.ends actor (.ofNumber stop mark)⟩ := by
  intro k
  cases hsame : Heap.sameKey actor k with
  | true => exact ⟨some stop, mark, by rw [Heap.entryGet?_entryPut, if_pos hsame]⟩
  | false =>
      obtain ⟨held, hheld⟩ := h k
      refine ⟨held, .congr ?_ hheld⟩
      rw [Heap.entryGet?_entryPut, hsame, if_neg Bool.false_ne_true]

end Cooldowns

namespace Manager

/-! ### What lasts -/

/-- A property of managers that is kept by every change a manager can make. -/
structure Lasting (P : Manager → Prop) : Prop where
  noted : ∀ {m : Manager} (journal : List Entry) (messages : List (Value × String))
    (spawned : List String), P m → P { m with journal, messages, spawned }
  queued : ∀ {m : Manager} (a : Activation), P m → P { m with pending := m.pending ++ [a] }
  hosted : ∀ {m : Manager} (host : Host), P m → P { m with host }
  closed : ∀ {m : Manager}, P m → P { m with closed := true }
  put : ∀ {m : Manager} (actor : Value) (stop : Number) (mark : Mark), P m →
    P { m with cooldowns := ⟨Heap.entryPut m.cooldowns.ends actor (.ofNumber stop mark)⟩ }

namespace Lasting

variable {P : Manager → Prop} (L : Lasting P)

include L

theorem reported {m : Manager} (journal : List Entry) (messages : List (Value × String))
    (hm : P m) : P { m with journal, messages } :=
  L.noted journal messages m.spawned hm

theorem recordCooldown (a : Activation) (p : Progress) (h : Heap) {m : Manager}
    (w : Activation.Watch) (hm : P m) : P (a.recordCooldown p h m w).2.1 := by
  obtain ⟨journal, hframe | ⟨stop, mark, hframe⟩⟩ := a.recordCooldown_frame p h m w
  · rw [hframe]
    exact L.reported journal m.messages hm
  · rw [hframe]
    exact L.reported journal m.messages (L.put a.actor stop mark hm)

theorem watcher (a : Activation) (room : Nat) (node : Node) (p : Progress) (h : Heap) {m : Manager}
    (w : Activation.Watch) (hm : P m) : P (a.watcher room node p h m w).2.1 := by
  rcases a.watcher_cases room node p h m w with ⟨journal, late, hstops⟩ | ⟨-, hrecords⟩
  · rw [hstops]
    exact L.reported journal m.messages hm
  · rw [hrecords]
    exact L.recordCooldown a p h w hm

theorem finish (a : Activation) (result : Except Fault Outcome)
    (s : State Manager Activation.Watch) (hs : P s.world) : P (a.finish result s).2.2 := by
  obtain ⟨h, m, p, w⟩ := s
  rcases a.finish_eq result ⟨h, m, p, w⟩ with ⟨-, hfinish⟩ | ⟨-, hfinish⟩
  · obtain ⟨before, recorded, journal, messages, rfl, hwrap⟩ := a.wrapUp_frame result h m p w
    rw [hfinish, hwrap]
    exact L.reported journal messages
      (L.recordCooldown a p h w (L.reported before m.messages hs))
  · rw [hfinish]
    exact hs

/-! ### Runs -/

section Runs

variable {service : Nat → Seat.Service Manager}
  (K : ∀ room, seat.Keeps (service room) (fun _ => True) P)

include K

theorem tracking (a : Activation) (limits : Limits) :
    Exec.Tracking ⟨seat.binding service, limits, a.event⟩ a.watcher a.watcher id
      fun m _ _ => P m where
  depth _ hm := hm
  locals _ hm := hm
  phase _ hm := hm
  coolDown _ _ hm := hm
  write _ _ hm := L.hosted _ hm
  turn hchange hm := Seat.Keeps.changes K hchange hm
  exceed _ hm := hm
  watch {_ p t} room node h _ hm := L.watcher a room node { p with steps := p.steps + 1 } h t hm
  agrees _ _ _ _ _ _ := rfl

theorem run (a : Activation) (room : Nat) (h : Heap) {m : Manager} (hm : P m) :
    P (a.run (seat.binding service) room h m).2.world :=
  ((L.tracking K a m.config.limits).run room a.trigger.program ⟨h, m, .start a.locals, {}⟩ hm).1

theorem perform (a : Activation) (room : Nat) (h : Heap) {m : Manager} (hm : P m) :
    P (a.perform (seat.binding service) room h m).2.2 :=
  L.finish a _ _ (L.run K a room h hm)

end Runs

/-! ### Activations -/

theorem gate (trigger : Trigger) (event : Value) (locals : Table Value) (h : Heap) {m : Manager}
    (hm : P m) : P (m.gate trigger event locals h).2 := by
  rcases m.gate_cases trigger event locals h with ⟨actor, -, hgate⟩ | ⟨-, journal, messages, hgate⟩
  · rw [hgate]
    exact hm
  · rw [hgate]
    exact L.reported journal messages hm

theorem spawn {perform : Performer}
    (hperform : ∀ a h {m}, P m → P (perform a h m).2.2) (a : Activation) (h : Heap) {m : Manager}
    (hm : P m) : P (Manager.spawn perform a h m).2.2 := by
  have hspawned : P { m with spawned := a.trigger.taskName :: m.spawned } :=
    L.noted m.journal m.messages _ hm
  unfold Manager.spawn
  extract_lets m'
  split
  · exact hperform a h hspawned
  · exact L.queued a hspawned

theorem activateWith {perform : Performer}
    (hperform : ∀ a h {m}, P m → P (perform a h m).2.2) (trigger : Trigger) (event : Value)
    (locals : Table Value) (h : Heap) {m : Manager} (hm : P m) :
    P (Manager.activateWith perform trigger event locals h m).2.2 := by
  have hgate := L.gate trigger event locals h hm
  unfold Manager.activateWith
  rcases hcase : m.gate trigger event locals h with ⟨fault | _ | a, m'⟩
  · rw [hcase] at hgate
    exact hgate
  · rw [hcase] at hgate
    exact hgate
  · rw [hcase] at hgate
    exact L.spawn hperform a h hgate

theorem fireWith {perform : Performer}
    (hperform : ∀ a h {m}, P m → P (perform a h m).2.2) (name event : Value)
    (locals : Table Value) (h : Heap) {m : Manager} (hm : P m) :
    P (Manager.fireWith perform name event locals h m).2.2 := by
  unfold Manager.fireWith
  split
  · exact hm
  · exact L.activateWith hperform _ event locals h hm

/-! ### Nested runs -/

theorem answer {fire : Value → Value → Effect}
    (hfire : ∀ name event h {m}, P m → P (fire name event h m).2.2) (id : Nat) (request : Request)
    (h : Heap) {m : Manager} (hm : P m) : P (Manager.answer fire id request h m).2.2 := by
  cases request with
  | manager facility => exact hm
  | peek actor => exact hm
  | shutdown => exact L.reported _ m.messages (L.closed hm)
  | fire name event =>
      have hkept := hfire name event h hm
      unfold Manager.answer
      rcases hcase : fire name event h m with ⟨fault | _, h', m'⟩
      · rw [hcase] at hkept
        simpa only [hcase] using hkept
      · rw [hcase] at hkept
        simpa only [hcase] using hkept
  | _ => exact L.hosted _ hm

theorem keepsOf {serve : Seat.Service Manager}
    (hserve : ∀ id request h {m}, P m → P (serve id request h m).2.2) :
    seat.Keeps serve (fun _ => True) P where
  record _ _ hm := L.hosted _ hm
  serve id request h _ hm := hserve id request h hm
  asks _ _ _ := Act.asks_anything _

theorem keeps (runs room : Nat) : seat.Keeps (serviceF runs room) (fun _ => True) P := by
  induction runs generalizing room with
  | zero =>
      exact L.keepsOf fun id request h {_} hm =>
        L.answer (fun _ _ _ {_} hm => hm) id request h hm
  | succ runs ih =>
      -- a trigger that is fired is run with one level of nesting less
      have hfire (name event : Value) (h : Heap) {m : Manager} (hm : P m) :
          P (Manager.fireWith (fun a => a.perform (seat.binding (serviceF runs))
            (room - firingFrames)) name event .empty h m).2.2 :=
        L.fireWith (fun a h {_} hm => L.perform ih a _ h hm) name event .empty h hm
      exact L.keepsOf fun id request h {m} hm => L.answer hfire id request h hm

theorem performed (a : Activation) (h : Heap) {m : Manager} (hm : P m) :
    P (Manager.perform a h m).2.2 :=
  L.perform (L.keeps maxRuns) a _ h hm

theorem activate (trigger : Trigger) (event : Value) (locals : Table Value) (h : Heap)
    {m : Manager} (hm : P m) : P (Manager.activate trigger event locals h m).2.2 :=
  L.activateWith (fun a h {_} hm => L.performed a h hm) trigger event locals h hm

theorem fire (name event : Value) (locals : Table Value) (h : Heap) {m : Manager} (hm : P m) :
    P (Manager.fire name event locals h m).2.2 :=
  L.fireWith (fun a h {_} hm => L.performed a h hm) name event locals h hm

end Lasting

/-! ### Reachable managers -/

/-- Whether a manager starts runs at once and asks the event who is behind it, and its store holds
numbers only. -/
structure IsRegular (m : Manager) : Prop where
  direct : m.spawner = .direct
  asking : m.standIn = none
  timed : m.cooldowns.IsTimed

theorem lasting_isRegular : Lasting IsRegular where
  noted _ _ _ hm := ⟨hm.direct, hm.asking, hm.timed⟩
  queued _ hm := ⟨hm.direct, hm.asking, hm.timed⟩
  hosted _ hm := ⟨hm.direct, hm.asking, hm.timed⟩
  closed hm := ⟨hm.direct, hm.asking, hm.timed⟩
  put actor stop mark hm := ⟨hm.direct, hm.asking, hm.timed.put actor stop mark⟩

/-- What a manager may come to that starts runs at once, with an empty store, and asks the event who
is behind it.  Outside of its activations anything may happen to the heap and to the host. -/
inductive Reachable : Manager → Prop
  | start {m : Manager} : m.cooldowns = {} → m.spawner = .direct → m.standIn = none → Reachable m
  | outside {m : Manager} (host : Host) : Reachable m → Reachable { m with host }
  | compile {m : Manager} (name : Option String) (source : String) :
      Reachable m → Reachable (m.compile name source).2
  | add {m : Manager} (name source : String) : Reachable m → Reachable (m.add name source).2
  | remove {m : Manager} (name : String) : Reachable m → Reachable (m.remove name).2
  | clone {m : Manager} (trigger : Trigger) : Reachable m → Reachable (m.clone trigger).2
  | shutdown {m : Manager} : Reachable m → Reachable m.shutdown
  | activate {m : Manager} (trigger : Trigger) (event : Value) (locals : Table Value) (h : Heap) :
      Reachable m → Reachable (Manager.activate trigger event locals h m).2.2
  | fire {m : Manager} (name event : Value) (locals : Table Value) (h : Heap) :
      Reachable m → Reachable (Manager.fire name event locals h m).2.2

/-- **One gets to regular managers only.** -/
theorem Reachable.regular {m : Manager} (hm : m.Reachable) : m.IsRegular := by
  induction hm with
  | start hstore hdirect hasking =>
      refine ⟨hdirect, hasking, ?_⟩
      rw [hstore]
      exact Cooldowns.isTimed_empty
  | outside host _ ih => exact lasting_isRegular.hosted host ih
  | @compile m name source _ ih =>
      obtain ⟨journal, hframe⟩ := m.compile_frame name source
      rw [hframe]
      exact lasting_isRegular.reported journal m.messages ih
  | @add m name source _ ih =>
      obtain ⟨triggers, journal, hframe⟩ := m.add_frame name source
      rw [hframe]
      exact ⟨ih.direct, ih.asking, ih.timed⟩
  | remove name _ ih => exact ⟨ih.direct, ih.asking, ih.timed⟩
  | @clone m trigger _ ih =>
      obtain ⟨journal, hframe⟩ := m.clone_frame trigger
      rw [hframe]
      exact lasting_isRegular.reported journal m.messages ih
  | @shutdown m _ ih => exact lasting_isRegular.reported _ m.messages (lasting_isRegular.closed ih)
  | activate trigger event locals h _ ih =>
      exact lasting_isRegular.activate trigger event locals h ih
  | fire name event locals h _ ih => exact lasting_isRegular.fire name event locals h ih

end Manager

end TriggerEngine
