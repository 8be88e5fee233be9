/-
**An activation started twice.**

Take two managers with the same host and the same terms, and start one activation from each, in
heaps of which the one extends the other.  If its program only reads the world, it comes to the
same: the answers are the same, and what it leaves behind in the managers is the same but for the
names of marks.  What stood in them before makes no difference to it.

Main definitions:

* `Host.Within` — hosts whose values stand in a heap;
* `Host.IsStill` — hosts that do nothing when they are looked at;
* `Manager.Trace`, `Manager.after` — what a run leaves behind in its manager;
* `Activation.Twin` — an activation that can be started from two managers;
* `Activation.Alike` — managers with the same traces of it.

Main results:

* `Activation.Twin.watcher` — the watcher answers alike;
* `Activation.Twin.run`, `Activation.Twin.perform` — **both starts come to the same**.
-/

import TriggerEngine.Manager.Activation
import TriggerEngine.Proofs.Manager.Recording
import TriggerEngine.Proofs.Run.Renaming

set_option autoImplicit false

namespace TriggerEngine

/-- Whether all that a run can read of a host stands in a heap. -/
structure Host.Within (h : Heap) (host : Host) : Prop where
  attributes : ∀ {id name v}, host.readAttribute id name = .ok v → v.Within h
  items : ∀ {id i v}, host.item? id i = .ok (some v) → v.Within h
  globals : ∀ {name v}, host.globals.get? name = some v → v.Within h

/-- Whether a host does nothing when it is looked at, and offers members of plain values that do not
depend on the names of lists and marks. -/
structure Host.IsStill (host : Host) : Prop where
  code : ∀ inquiry, host.code inquiry = none
  further : ∀ (σ : Renaming) v name,
    host.further (σ.value v) name = (host.further v name).map σ.value

namespace Host.IsStill

variable {ω : Type} {seat : Seat ω} {w : ω} (hstill : (seat.host w).IsStill)

include hstill

theorem isSilent (serve : Nat → Seat.Service ω) : (seat.binding serve).IsSilent w := by
  intro room inquiry h hi
  show seat.consult (serve room) inquiry h w = _
  unfold Seat.consult Seat.runCode
  rw [hstill.code inquiry]
  cases inquiry with
  | lookup role name => cases hi
  | _ => rfl

theorem item?_eq (serve : Seat.Service ω) (id i : Nat) (h : Heap) :
    seat.item? serve id i h w = ((seat.host w).item? id i, h, w) := by
  unfold Seat.item? Seat.runCode
  rw [hstill.code]

end Host.IsStill

/-! ### Traces -/

namespace Manager

/-- What the run of an activation leaves behind in its manager, the last of it first. -/
structure Trace where
  /-- What was reported. -/
  journal : List Entry := []
  /-- What the actor was told. -/
  messages : List String := []
  /-- The ends of cooldowns that were written down. -/
  ends : List (Number × Mark) := []

/-- A trace after renaming. -/
def Trace.rename (σ : Renaming) (t : Trace) : Trace :=
  { t with ends := t.ends.map fun stop => (stop.1, σ.mark stop.2) }

/-- The ends of cooldowns with those that were written down for an actor. -/
def recorded (ends : Array (Value × Value)) (actor : Value) (stops : List (Number × Mark)) :
    Array (Value × Value) :=
  stops.foldr (fun stop ends => Heap.entryPut ends actor (.ofNumber stop.1 stop.2)) ends

/-- A manager with a trace of a run for an actor. -/
def after (m : Manager) (actor : Value) (t : Trace) : Manager :=
  { m with
    journal := t.journal ++ m.journal
    messages := t.messages.map (actor, ·) ++ m.messages
    cooldowns := ⟨recorded m.cooldowns.ends actor t.ends⟩ }

theorem notify_of_direct {m : Manager} (h : m.messenger = .direct) (heap : Heap) (actor : Value)
    (text : String) :
    m.notify heap actor text = { m with messages := (actor, text) :: m.messages } := by
  rw [notify, h]

end Manager

namespace Activation

/-- Whether an activation can be started from two managers alike: they have the same terms, and what
it starts with stands in the heap that both starts share. -/
structure Twin (a : Activation) (σ : Renaming) (m m' : Manager) : Prop where
  host : m'.host = m.host
  config : m'.config = m.config
  closed : m'.closed = m.closed
  messenger : m'.messenger = m.messenger
  sound : m.host.Within σ.base
  still : m.host.IsStill
  actor : a.actor.Within σ.base
  locals : ∀ entry ∈ a.locals.entries, entry.2.Within σ.base

/-- Whether managers are what two others become by traces that are the same but for names.  Nothing
is told to no one, and no cooldown is written down for no one. -/
def Alike (a : Activation) (σ : Renaming) (m m' w w' : Manager) : Prop :=
  ∃ t : Manager.Trace, (a.actor.isNull = true → t.messages = [] ∧ t.ends = []) ∧
    w = m.after a.actor t ∧ w' = m'.after a.actor (t.rename σ)

/-- The end of a run that has been counted: a last cooldown is written down, and the end is
reported. -/
def settle (a : Activation) (result : Except Fault Outcome) (p : Progress) (k : Watch) (h : Heap)
    (m : Manager) : Except Fault Unit × Heap × Manager :=
  match a.recordCooldown p h m k with
  | (.error fault, m, _) => (.error fault, h, m)
  | (.ok (), m, _) =>
    match a.reportEnd result h m with
    | (result, m) => (result, h, m)

variable {a : Activation} {σ : Renaming} {m m' w w' : Manager} {h h' : Heap}

namespace Alike

theorem refl (a : Activation) (σ : Renaming) (m m' : Manager) : a.Alike σ m m' m m' :=
  ⟨{}, fun _ => ⟨rfl, rfl⟩, rfl, rfl⟩

variable (A : a.Alike σ m m' w w')

include A

theorem report (entry : Entry) : a.Alike σ m m' (w.report entry) (w'.report entry) := by
  obtain ⟨t, hnull, rfl, rfl⟩ := A
  exact ⟨{ t with journal := entry :: t.journal }, hnull, rfl, rfl⟩

theorem tell (level : Level) (text : String) :
    a.Alike σ m m' (w.tell level text) (w'.tell level text) :=
  A.report _

theorem message (hactor : a.actor.isNull = false) (text : String) :
    a.Alike σ m m' { w with messages := (a.actor, text) :: w.messages }
      { w' with messages := (a.actor, text) :: w'.messages } := by
  obtain ⟨t, -, rfl, rfl⟩ := A
  refine ⟨{ t with messages := text :: t.messages }, fun hnull => ?_, rfl, rfl⟩
  rw [hactor] at hnull
  cases hnull

theorem stop (hactor : a.actor.isNull = false) (n : Number) (mark : Mark) :
    a.Alike σ m m'
      { w with cooldowns := ⟨Heap.entryPut w.cooldowns.ends a.actor (.ofNumber n mark)⟩ }
      { w' with
        cooldowns := ⟨Heap.entryPut w'.cooldowns.ends a.actor (.ofNumber n (σ.mark mark))⟩ } := by
  obtain ⟨t, -, rfl, rfl⟩ := A
  refine ⟨{ t with ends := (n, mark) :: t.ends }, fun hnull => ?_, rfl, rfl⟩
  rw [hactor] at hnull
  cases hnull

theorem twin (P : a.Twin σ m m') : a.Twin σ w w' := by
  obtain ⟨t, -, rfl, rfl⟩ := A
  exact ⟨P.host, P.config, P.closed, P.messenger, P.sound, P.still, P.actor, P.locals⟩

end Alike

/-! ### Reports -/

namespace Twin

variable (P : a.Twin σ m m') (R : h.Renamed σ h') (A : a.Alike σ m m' w w')

include P in
theorem value_actor : σ.value a.actor = a.actor :=
  σ.value_of_within P.actor

include P R in
theorem written? (v : Value) : m'.written? h' (σ.value v) = m.written? h v := by
  rw [Manager.written?, Manager.written?, P.host, R.display]

include P R in
theorem written?_actor : m'.written? h' a.actor = m.written? h a.actor := by
  have hwritten := P.written? R a.actor
  rwa [P.value_actor] at hwritten

include P R A

theorem notify (hactor : a.actor.isNull = false) (text : String) :
    a.Alike σ m m' (w.notify h a.actor text) (w'.notify h' a.actor text) := by
  have hterms := A.twin P
  cases hmessenger : w.messenger with
  | direct =>
      rw [Manager.notify_of_direct hmessenger,
        Manager.notify_of_direct (hterms.messenger.trans hmessenger)]
      exact A.message hactor text
  | journal =>
      unfold Manager.notify
      rw [hterms.messenger, hmessenger, hterms.written?_actor R]
      dsimp only
      split
      · exact A.report _
      · exact A

omit A in
theorem notifyAll (hactor : a.actor.isNull = false) (texts : List String) :
    ∀ {w w'}, a.Alike σ m m' w w' →
      a.Alike σ m m' (texts.foldl (·.notify h a.actor ·) w)
        (texts.foldl (·.notify h' a.actor ·) w') := by
  induction texts with
  | nil => exact fun A => A
  | cons text rest ih => exact fun A => ih (P.notify R A hactor text)

theorem reportCooldown (stop : Value) :
    a.Alike σ m m' (a.reportCooldown stop h w) (a.reportCooldown (σ.value stop) h' w') := by
  have hterms := A.twin P
  unfold Activation.reportCooldown
  rw [hterms.written?_actor R, hterms.written? R]
  split
  · exact A.tell _ _
  · exact A

theorem reportFailure (fault : Fault) :
    (a.reportFailure fault h' w').1 = (a.reportFailure fault h w).1 ∧
      a.Alike σ m m' (a.reportFailure fault h w).2 (a.reportFailure fault h' w').2 := by
  unfold Activation.reportFailure Activation.tellFailure
  cases fault.wording with
  | error unworded =>
      cases hactor : a.actor.isNull with
      | true => exact ⟨rfl, A⟩
      | false => exact ⟨rfl, P.notify R A hactor _⟩
  | ok text =>
      cases hactor : a.actor.isNull with
      | true => exact ⟨rfl, A.report _⟩
      | false => exact ⟨rfl, P.notifyAll R hactor _ (A.report _)⟩

theorem recordCooldown (p : Progress) (k : Watch) :
    (a.recordCooldown (σ.progress p) h' w' k).1 = (a.recordCooldown p h w k).1 ∧
      a.Alike σ m m' (a.recordCooldown p h w k).2.1
        (a.recordCooldown (σ.progress p) h' w' k).2.1 ∧
      (a.recordCooldown (σ.progress p) h' w' k).2.2 = (a.recordCooldown p h w k).2.2 := by
  have hend : (σ.progress p).cooldownEnd = p.cooldownEnd := rfl
  unfold Activation.recordCooldown
  rw [hend, σ.cooldownValue_progress]
  cases hstop : p.cooldownEnd with
  | none => exact ⟨rfl, A, rfl⟩
  | some stop =>
      have hvalue : p.cooldownValue = .ofNumber stop p.cooldownMark := by
        rw [Progress.cooldownValue, hstop]
      dsimp only
      split
      · exact ⟨rfl, A, rfl⟩
      · cases hactor : a.actor.isNull with
        | true => exact ⟨rfl, A.tell _ _, rfl⟩
        | false =>
            cases hkey : a.actor.isHashable with
            | false =>
                have hput : ∀ (c : Cooldowns) v,
                    c.put? a.actor v = .error (.unhashable a.actor) := by
                  intro c v
                  rw [Cooldowns.put?, Cooldowns.checkActor, hkey]
                  rfl
                rw [hput, hput]
                exact ⟨rfl, A, rfl⟩
            | true =>
                rw [Cooldowns.put?_of_isHashable _ hkey, Cooldowns.put?_of_isHashable _ hkey,
                  hvalue, σ.value_ofNumber]
                dsimp only
                have A' := A.stop hactor stop p.cooldownMark
                have hreport := P.reportCooldown R A' (.ofNumber stop p.cooldownMark)
                rw [σ.value_ofNumber] at hreport
                exact ⟨rfl, hreport, rfl⟩

/-! ### Runs -/

theorem watcher (room : Nat) (node : Node) (p : Progress) (k : Watch) :
    (a.watcher room node (σ.progress p) h' w' k).1 = (a.watcher room node p h w k).1 ∧
      a.Alike σ m m' (a.watcher room node p h w k).2.1
        (a.watcher room node (σ.progress p) h' w' k).2.1 ∧
      (a.watcher room node (σ.progress p) h' w' k).2.2 = (a.watcher room node p h w k).2.2 := by
  have hterms := A.twin P
  have hpassed : a.passed? (σ.progress p).steps w' = a.passed? p.steps w := by
    show a.passed? p.steps w' = _
    unfold passed? overdue
    rw [hterms.config, hterms.host]
  obtain ⟨hanswer, A', hwatch⟩ := P.recordCooldown R A p k
  unfold Activation.watcher
  rw [hterms.closed, hpassed]
  split
  · exact ⟨rfl, A, rfl⟩
  · cases a.passed? p.steps w with
    | some limit =>
        dsimp only
        unfold reportLate
        split
        · exact ⟨rfl, A, rfl⟩
        · exact ⟨rfl, A.tell _ _, rfl⟩
    | none =>
        dsimp only
        rcases hrecord : a.recordCooldown p h w k with ⟨answer, w₁, k₁⟩
        rcases hrecord' : a.recordCooldown (σ.progress p) h' w' k with ⟨answer', w₁', k₁'⟩
        rw [hrecord, hrecord'] at hanswer A' hwatch
        dsimp only at hanswer A' hwatch
        subst hanswer hwatch
        cases answer' with
        | ok _ => exact ⟨rfl, A', rfl⟩
        | error fault => exact ⟨rfl, A', rfl⟩

end Twin

namespace Twin

variable (P : a.Twin σ m m') (R : h.Renamed σ h')

/-- Runs from two managers are translated into each other. -/
def translation : Translation (a.setting Manager.binding m) where
  toRenaming := σ
  Matches := a.Alike σ m m'
  label A := congrArg Host.label (A.twin P).host
  isRegistered A role name := by
    show ((Manager.host _).registry role).entries.has name = _
    rw [(A.twin P).host]
    rfl
  readAttribute A id name := by
    show (Manager.host _).readAttribute id name =
      Except.map σ.value ((Manager.host _).readAttribute id name)
    rw [(A.twin P).host]
    cases hread : (Manager.host _).readAttribute id name with
    | ok v => exact congrArg Except.ok (σ.value_of_within ((A.twin P).sound.attributes hread)).symm
    | error fault => rfl
  item? {w w'} A room id i h h' := by
    have hstill : w'.host.IsStill := (A.twin P).host ▸ (A.twin P).still
    refine ⟨_, (A.twin P).still.item?_eq (Manager.service room) id i h,
      (hstill.item?_eq (Manager.service room) id i h').trans
        (Prod.ext ?_ rfl)⟩
    show (Manager.host _).item? id i = Except.map (Option.map σ.value) ((Manager.host _).item? id i)
    rw [(A.twin P).host]
    cases hread : (Manager.host _).item? id i with
    | ok found =>
        cases found with
        | none => rfl
        | some v =>
            have hwithin := (A.twin P).sound.items hread
            exact congrArg (fun v => Except.ok (some v)) (σ.value_of_within hwithin).symm
    | error fault => rfl
  silent {w w'} A :=
    have hstill : w'.host.IsStill := (A.twin P).host ▸ (A.twin P).still
    ⟨(A.twin P).still.isSilent _, hstill.isSilent _⟩
  further A v name := by
    show (Manager.host _).further (σ.value v) name = ((Manager.host _).further v name).map σ.value
    rw [(A.twin P).host, (A.twin P).still.further]
  memory A := congrArg Host.memory (A.twin P).host
  readGlobal A name := by
    show ((Manager.host _).globals.get? name).getD .null =
      σ.value (((Manager.host _).globals.get? name).getD .null)
    rw [(A.twin P).host]
    cases hread : (Manager.host _).globals.get? name with
    | none => rfl
    | some v => exact (σ.value_of_within ((A.twin P).sound.globals hread)).symm
  clock A := congrArg Host.clock (A.twin P).host
  watcher hask room node p t := fun R A => by
    cases hask
    exact P.watcher R A room node p t

include R in
theorem relates :
    P.translation.Relates ⟨h, m, .start a.locals, {}⟩ ⟨h', m', .start a.locals, {}⟩ where
  heap := R
  world := .refl a σ m m'
  progress := by
    have hlocals : σ.locals (.ofTable a.locals) = .ofTable a.locals := by
      refine congrArg Dictionary.mk ?_
      show (a.locals.entries.map _).map _ = a.locals.entries.map _
      rw [List.map_map]
      refine List.map_congr_left fun entry hentry => ?_
      exact Prod.ext rfl (σ.value_of_within (P.locals entry hentry))
    show Progress.start a.locals = σ.progress (.start a.locals)
    rw [Progress.start, Renaming.progress, hlocals]
    rfl
  watch := rfl

variable (hprogram : Node.EachOf Node.IsReadOnly a.trigger.program) (room : Nat)

include R hprogram

/-- **Both starts come to the same**: the runs. -/
theorem run :
    (a.run Manager.binding room h' m').1 =
        (a.run Manager.binding room h m).1.map P.translation.outcome ∧
      P.translation.Relates (a.run Manager.binding room h m).2
        (a.run Manager.binding room h' m').2 := by
  have hsetting : a.setting Manager.binding m' = a.setting Manager.binding m := by
    rw [setting, setting, P.config]
  unfold Activation.run
  rw [hsetting]
  exact Translation.run hprogram room (P.relates R)

omit hprogram in
theorem reportEnd {w w' : Manager} (A : a.Alike σ m m' w w') (result : Except Fault Outcome) :
    (a.reportEnd (result.map P.translation.outcome) h' w').1 = (a.reportEnd result h w).1 ∧
      a.Alike σ m m' (a.reportEnd result h w).2
        (a.reportEnd (result.map P.translation.outcome) h' w').2 := by
  cases result with
  | ok o => exact ⟨rfl, A.tell _ _⟩
  | error fault => exact P.reportFailure R A fault

omit hprogram in
theorem settle {w w' : Manager} (A : a.Alike σ m m' w w') (result : Except Fault Outcome)
    (p : Progress) (k : Watch) :
    (a.settle (result.map P.translation.outcome) (σ.progress p) k h' w').1 =
        (a.settle result p k h w).1 ∧
      (a.settle result p k h w).2.1.Renamed σ
        (a.settle (result.map P.translation.outcome) (σ.progress p) k h' w').2.1 ∧
      a.Alike σ m m' (a.settle result p k h w).2.2
        (a.settle (result.map P.translation.outcome) (σ.progress p) k h' w').2.2 := by
  obtain ⟨hanswer, A₁, -⟩ := P.recordCooldown R A p k
  unfold Activation.settle
  rcases hrecord : a.recordCooldown p h w k with ⟨answer, w₁, k₁⟩
  rcases hrecord' : a.recordCooldown (σ.progress p) h' w' k with ⟨answer', w₁', k₁'⟩
  rw [hrecord, hrecord'] at hanswer A₁
  dsimp only at hanswer A₁
  subst hanswer
  cases answer' with
  | error fault => exact ⟨rfl, R, A₁⟩
  | ok _ =>
      obtain ⟨hend, A₂⟩ := P.reportEnd R A₁ result
      exact ⟨hend, R, A₂⟩

omit R hprogram in
theorem finish (result : Except Fault Outcome) {s s' : State Manager Watch}
    (hs : P.translation.Relates s s') :
    (a.finish (result.map P.translation.outcome) s').1 = (a.finish result s).1 ∧
      (a.finish result s).2.1.Renamed σ (a.finish (result.map P.translation.outcome) s').2.1 ∧
      a.Alike σ m m' (a.finish result s).2.2
        (a.finish (result.map P.translation.outcome) s').2.2 := by
  obtain ⟨h₁, w₁, p, k⟩ := s
  obtain ⟨h₁', w₁', p', k'⟩ := s'
  have R₁ : h₁.Renamed σ h₁' := hs.heap
  have A₁ : a.Alike σ m m' w₁ w₁' := hs.world
  obtain rfl : p' = σ.progress p := hs.progress
  obtain rfl : k' = k := hs.watch
  cases result with
  | ok o => exact P.settle R₁ (A₁.report (.ran o.phase.text o.steps)) (.ok o) p k'
  | error fault =>
      cases hcaught : fault.isCaught with
      | true =>
          have hsettle := P.settle R₁ A₁ (.error fault) p k'
          simp only [Activation.finish, Except.map, hcaught, if_true]
          exact hsettle
      | false =>
          simp only [Activation.finish, Except.map, hcaught]
          exact ⟨rfl, R₁, A₁⟩

include P in
/-- **Both starts come to the same**: what is made of the runs. -/
theorem perform :
    (a.perform Manager.binding room h' m').1 = (a.perform Manager.binding room h m).1 ∧
      (a.perform Manager.binding room h m).2.1.Renamed σ
        (a.perform Manager.binding room h' m').2.1 ∧
      a.Alike σ m m' (a.perform Manager.binding room h m).2.2
        (a.perform Manager.binding room h' m').2.2 := by
  obtain ⟨hresult, hs⟩ := P.run R hprogram room
  unfold Activation.perform
  rcases hrun : a.run Manager.binding room h m with ⟨result, s⟩
  rcases hrun' : a.run Manager.binding room h' m' with ⟨result', s'⟩
  rw [hrun, hrun'] at hresult hs
  dsimp only at hresult hs
  subst hresult
  exact P.finish result hs

end Twin

end Activation

end TriggerEngine
