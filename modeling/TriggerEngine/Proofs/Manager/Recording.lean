/-
**Which ends of cooldowns are written down.**

A run may set a cooldown many times.  Its watcher writes an end down when it comes upon a new one,
and what is left is written down when the run is over.  An end that equals the one written down last
is not new; so of ends that are equal and follow one another the first one stays.  Whatever becomes
of the run, what the store holds for the actor in the end can be told from the ends that were come
upon, and what it holds for others has not changed.  A run that is ended by what nobody catches is
not over: nothing comes upon an end that it has set since its last node.

To speak of all ends that a run has set, it is run under a watcher that keeps a log.

Main definitions:

* `Cooldowns.settled` — what is left written down of some ends;
* `Cooldowns.Follows` — how a store differs from an earlier one;
* `Activation.logger`, `Activation.ends` — the watcher that keeps a log, and the ends that a run
  sets;
* `Activation.isOver` — runs that have ended by themselves;
* `Manager.IsCalm` — managers that start runs at once, with a host that fires no triggers.

Main results:

* `Cooldowns.settled_concat` — what is left is worth as much as the end that was set last;
* `Activation.recordCooldown_follows` — what is written down at once;
* `Activation.perform_follows` — **what is written down in a run**;
* `Activation.ends_getLast?` — the last of the ends is the one that a run is left with that is over.
-/

import TriggerEngine.Manager.Activation
import TriggerEngine.Proofs.Host.Keeping
import TriggerEngine.Proofs.Run.Tracking
import TriggerEngine.Proofs.Value.Key

set_option autoImplicit false

namespace TriggerEngine

/-! ### Ends -/

namespace Cooldowns

/-- What is written down after an end was come upon. -/
def note (known : Option Number) (stop : Number) : Option Number :=
  if known.any stop.eq then known else some stop

/-- What is left written down after some ends were come upon. -/
def settled (ends : List Number) : Option Number :=
  ends.foldl note none

theorem note_cases (known : Option Number) (stop : Number) :
    ∃ left, note known stop = some left ∧ (left = stop ∨ stop.eq left = true) := by
  unfold note
  split
  · rename_i hknown
    obtain ⟨left, rfl, heq⟩ := (Option.any_eq_true _ _).1 hknown
    exact ⟨left, rfl, .inr heq⟩
  · exact ⟨stop, rfl, .inl rfl⟩

theorem settled_append (ends more : List Number) :
    settled (ends ++ more) = more.foldl note (settled ends) :=
  List.foldl_append

theorem settled_concat (ends : List Number) (stop : Number) :
    ∃ left, settled (ends ++ [stop]) = some left ∧ (left = stop ∨ stop.eq left = true) := by
  rw [settled_append]
  exact note_cases _ stop

theorem exists_settled {ends : List Number} (h : ends ≠ []) : ∃ stop, settled ends = some stop := by
  obtain ⟨stop, hstop, -⟩ := settled_concat ends.dropLast (ends.getLast h)
  rw [List.dropLast_concat_getLast h] at hstop
  exact ⟨stop, hstop⟩

/-! ### Stores -/

theorem put?_of_isHashable (c : Cooldowns) {actor : Value} (h : actor.isHashable = true)
    (stop : Value) : c.put? actor stop = .ok ⟨Heap.entryPut c.ends actor stop⟩ := by
  rw [put?, checkActor, if_pos h]
  rfl

theorem eq_of_put? {c c' : Cooldowns} {actor stop : Value} (h : c.put? actor stop = .ok c') :
    c' = ⟨Heap.entryPut c.ends actor stop⟩ := by
  cases hactor : actor.isHashable with
  | true => exact Except.ok.inj (h.symm.trans (c.put?_of_isHashable hactor stop))
  | false =>
      rw [put?, checkActor, hactor] at h
      cases h

/-- Whether a store holds an end, or none, for an actor. -/
def Holds (c : Cooldowns) (actor : Value) : Option Number → Prop
  | none => Heap.entryGet? c.ends actor = none
  | some stop => ∃ mark, Heap.entryGet? c.ends actor = some (.ofNumber stop mark)

theorem Holds.congr {c c' : Cooldowns} {actor : Value} {held : Option Number}
    (h : Heap.entryGet? c.ends actor = Heap.entryGet? c'.ends actor) (hholds : c'.Holds actor held) :
    c.Holds actor held := by
  cases held with
  | none => exact h.trans hholds
  | some stop =>
      obtain ⟨mark, hmark⟩ := hholds
      exact ⟨mark, h.trans hmark⟩

/-- Whether a store holds what an earlier one held, but for an end that was written down for an
actor since, if one was. -/
structure Follows (actor : Value) (known : Option Number) (earlier c : Cooldowns) : Prop where
  others : ∀ k, Heap.sameKey actor k = false →
    Heap.entryGet? c.ends k = Heap.entryGet? earlier.ends k
  idle : known = none → ∀ k, Heap.entryGet? c.ends k = Heap.entryGet? earlier.ends k
  own : ∀ stop, known = some stop → ∀ k, k.isNull = false → Heap.sameKey actor k = true →
    c.Holds k (some stop)

theorem Follows.refl (actor : Value) (c : Cooldowns) : Follows actor none c c where
  others _ _ := rfl
  idle _ _ := rfl
  own _ := nofun

theorem Follows.put {actor : Value} {known : Option Number} {earlier c : Cooldowns}
    (h : Follows actor known earlier c) (stop : Number) (mark : Mark) :
    Follows actor (some stop) earlier ⟨Heap.entryPut c.ends actor (.ofNumber stop mark)⟩ where
  others k hk := by
    rw [Heap.entryGet?_entryPut, hk, if_neg Bool.false_ne_true, h.others k hk]
  idle := nofun
  own stop' hstop k _ hk := by
    cases hstop
    exact ⟨mark, by rw [Heap.entryGet?_entryPut, hk, if_pos rfl]⟩

theorem Follows.skip {known : Option Number} {earlier c : Cooldowns}
    (h : Follows .null known earlier c) (stop : Number) :
    Follows .null (some stop) earlier c where
  others := h.others
  idle := nofun
  own stop' hstop k hnull hk := by
    rw [Heap.isNull_of_sameKey_null hk] at hnull
    cases hnull

end Cooldowns

/-! ### Writing down -/

namespace Activation

open Cooldowns

theorem knows_eq (w : Watch) (stop : Number) : w.knows stop = w.written.any stop.eq := by
  unfold Watch.knows
  cases w.written <;> rfl

theorem reportCooldown_frame (a : Activation) (stop : Value) (h : Heap) (m : Manager) :
    ∃ journal, a.reportCooldown stop h m = { m with journal } := by
  unfold reportCooldown
  split
  · exact ⟨_, rfl⟩
  · exact ⟨_, rfl⟩

theorem recordCooldown_frame (a : Activation) (p : Progress) (h : Heap) (m : Manager) (w : Watch) :
    ∃ journal, (a.recordCooldown p h m w).2.1 = { m with journal } ∨
      ∃ stop mark, (a.recordCooldown p h m w).2.1 =
        { m with
          cooldowns := ⟨Heap.entryPut m.cooldowns.ends a.actor (.ofNumber stop mark)⟩
          journal } := by
  unfold recordCooldown
  split
  · exact ⟨_, .inl rfl⟩
  · rename_i stop hstop
    split
    · exact ⟨_, .inl rfl⟩
    · dsimp only
      split
      · exact ⟨_, .inl rfl⟩
      · split
        · exact ⟨_, .inl rfl⟩
        · rename_i hput
          rw [Progress.cooldownValue, hstop] at hput
          obtain rfl := eq_of_put? hput
          obtain ⟨journal, hreport⟩ := reportCooldown_frame a p.cooldownValue h
            { m with cooldowns := ⟨Heap.entryPut m.cooldowns.ends a.actor (.ofNumber stop _)⟩ }
          exact ⟨journal, .inr ⟨_, _, hreport⟩⟩

theorem recordCooldown_follows {a : Activation} (hactor : a.actor.isHashable = true)
    {earlier : Cooldowns} (p : Progress) (h : Heap) {m : Manager} {w : Watch}
    (hfollows : Follows a.actor w.written earlier m.cooldowns) :
    (a.recordCooldown p h m w).2.2.written = p.cooldownEnd.toList.foldl note w.written ∧
      Follows a.actor (a.recordCooldown p h m w).2.2.written earlier
        (a.recordCooldown p h m w).2.1.cooldowns := by
  unfold recordCooldown
  split
  · rename_i hnone
    rw [hnone]
    exact ⟨rfl, hfollows⟩
  · rename_i stop hstop
    have hnote : p.cooldownEnd.toList.foldl note w.written =
        if w.knows stop then w.written else some stop := by
      rw [hstop, knows_eq]
      rfl
    rw [hnote]
    split
    · exact ⟨rfl, hfollows⟩
    · dsimp only
      split
      · -- nobody is behind the run: its end is known from now on, but stored for no one
        rename_i hnull
        refine ⟨rfl, ?_⟩
        cases hactor : a.actor with
        | null =>
            rw [hactor] at hfollows
            exact hfollows.skip stop
        | _ => rw [hactor] at hnull; cases hnull
      · have hput : m.cooldowns.put? a.actor p.cooldownValue =
            .ok ⟨Heap.entryPut m.cooldowns.ends a.actor (.ofNumber stop p.cooldownMark)⟩ := by
          rw [put?_of_isHashable _ hactor, Progress.cooldownValue, hstop]
        have hwritten := hfollows.put stop p.cooldownMark
        rw [hput]
        dsimp only
        obtain ⟨journal, hreport⟩ := reportCooldown_frame a p.cooldownValue h
          { m with cooldowns := ⟨Heap.entryPut m.cooldowns.ends a.actor (.ofNumber stop _)⟩ }
        rw [hreport]
        exact ⟨rfl, hwritten⟩

end Activation

/-! ### Calm managers -/

/-- Whether a question is one that does not fire a trigger. -/
def Request.IsQuiet (request : Request) : Prop :=
  ∀ name event, request ≠ .fire name event

/-- Whether the routines of a host fire no triggers. -/
def Host.IsQuiet (host : Host) : Prop :=
  ∀ id call, ((host.routine id).act call).Asks Request.IsQuiet

theorem Host.IsQuiet.of_routines {host host' : Host} (h : host.IsQuiet)
    (hroutines : host'.routines = host.routines) : host'.IsQuiet := by
  intro id call
  have hroutine : host'.routine id = host.routine id := by
    unfold Host.routine
    rw [hroutines]
  rw [hroutine]
  exact h id call

namespace Manager

/-- Whether a manager starts runs at once and no trigger is fired by a routine of its host. -/
structure IsCalm (m : Manager) : Prop where
  direct : m.spawner = .direct
  quiet : m.host.IsQuiet

theorem notify_frame (m : Manager) (h : Heap) (actor : Value) (text : String) :
    ∃ journal messages, m.notify h actor text = { m with journal, messages } := by
  unfold notify
  split
  · exact ⟨_, _, rfl⟩
  · split
    · exact ⟨_, _, rfl⟩
    · exact ⟨_, _, rfl⟩

theorem foldl_notify_frame (h : Heap) (actor : Value) (texts : List String) : ∀ m : Manager,
    ∃ journal messages, texts.foldl (·.notify h actor ·) m = { m with journal, messages } := by
  induction texts with
  | nil => exact fun m => ⟨_, _, rfl⟩
  | cons text rest ih =>
      intro m
      obtain ⟨_, _, hfirst⟩ := m.notify_frame h actor text
      obtain ⟨journal, messages, hrest⟩ := ih (m.notify h actor text)
      refine ⟨journal, messages, hrest.trans ?_⟩
      rw [hfirst]

theorem answer_quiet (fire : Value → Value → Effect) (id : Nat) {request : Request}
    (hrequest : request.IsQuiet) (h : Heap) {m : Manager} (hm : m.host.IsQuiet) :
    (answer fire id request h m).2.2.host.IsQuiet ∧
      (answer fire id request h m).2.2.cooldowns = m.cooldowns ∧
      (answer fire id request h m).2.2.spawner = m.spawner := by
  have hserve := Host.answering_serve m.host id request h
  cases request with
  | fire name event => exact absurd rfl (hrequest name event)
  | manager facility => exact ⟨hm, rfl, rfl⟩
  | peek actor => exact ⟨hm, rfl, rfl⟩
  | shutdown => exact ⟨hm, rfl, rfl⟩
  | _ => exact ⟨hm.of_routines hserve.routines, rfl, rfl⟩

theorem exists_answer (runs room : Nat) : ∃ fire, serviceF runs room = answer fire := by
  cases runs with
  | zero => exact ⟨_, rfl⟩
  | succ runs => exact ⟨_, rfl⟩

theorem keeps_quiet (room : Nat) (c : Cooldowns) (spawner : Spawner) :
    seat.Keeps (service room) Request.IsQuiet fun m =>
      m.host.IsQuiet ∧ m.cooldowns = c ∧ m.spawner = spawner where
  record _ _ hm := ⟨hm.1.of_routines rfl, hm.2⟩
  serve {m} id request h hrequest hm := by
    obtain ⟨fire, hfire⟩ := exists_answer maxRuns room
    rw [service, hfire]
    obtain ⟨hquiet, hstore, hspawner⟩ := answer_quiet fire id hrequest h hm.1
    exact ⟨hquiet, hstore.trans hm.2.1, hspawner.trans hm.2.2⟩
  asks id call hm := hm.1 id call

end Manager

/-! ### Runs with a log -/

namespace Activation

open Cooldowns

theorem recordCooldown_calm (a : Activation) (p : Progress) (h : Heap) {m : Manager}
    (hm : m.IsCalm) (w : Watch) : (a.recordCooldown p h m w).2.1.IsCalm := by
  obtain ⟨journal, hframe | ⟨stop, mark, hframe⟩⟩ := a.recordCooldown_frame p h m w
  · rw [hframe]
    exact ⟨hm.direct, hm.quiet⟩
  · rw [hframe]
    exact ⟨hm.direct, hm.quiet⟩

/-- The log of a watcher that has come upon an end, or none; if it stops the run, it takes no notice
of ends any more. -/
def logAfter (answer : Except Fault Bool) (found : Option Number) (log : List Number) :
    List Number :=
  match answer with
  | .ok true => log
  | _ => log ++ found.toList

/-- The watcher of a run that keeps a log of all ends it comes upon. -/
def logger (a : Activation) : Watcher Manager (Watch × List Number) := fun room node p h m t =>
  match a.watcher room node p h m t.1 with
  | (answer, m, w) => (answer, m, w, logAfter answer p.cooldownEnd t.2)

/-- What the steps of a run keep: the log tells what is written down and what the store holds. -/
structure Logged (a : Activation) (earlier : Cooldowns) (m : Manager) (p : Progress)
    (t : Watch × List Number) : Prop where
  calm : m.IsCalm
  written : t.1.written = settled t.2
  follows : Follows a.actor t.1.written earlier m.cooldowns
  empty : p.cooldownEnd = none → t.2 = []

theorem reportLate_frame (a : Activation) (limit : Number) (line : Line) (m : Manager) (w : Watch) :
    ∃ journal late, a.reportLate limit line m w = ({ m with journal }, { w with late }) := by
  unfold reportLate
  split
  · exact ⟨_, _, rfl⟩
  · exact ⟨_, _, rfl⟩

theorem watcher_cases (a : Activation) (room : Nat) (node : Node) (p : Progress) (h : Heap)
    (m : Manager) (w : Watch) :
    (∃ journal late,
      a.watcher room node p h m w = (.ok true, { m with journal }, { w with late })) ∨
      ((a.watcher room node p h m w).1 ≠ .ok true ∧
        (a.watcher room node p h m w).2 = (a.recordCooldown p h m w).2) := by
  unfold watcher
  split
  · exact .inl ⟨_, _, rfl⟩
  · split
    · rename_i limit _
      obtain ⟨journal, late, hreport⟩ := a.reportLate_frame limit node.line m w
      rw [hreport]
      exact .inl ⟨_, _, rfl⟩
    · rcases a.recordCooldown p h m w with ⟨fault | _, m', w'⟩
      · exact .inr ⟨nofun, rfl⟩
      · exact .inr ⟨nofun, rfl⟩

theorem logAfter_of_ne {answer : Except Fault Bool} (h : answer ≠ .ok true)
    (found : Option Number) (log : List Number) :
    logAfter answer found log = log ++ found.toList := by
  match answer with
  | .ok true => exact absurd rfl h
  | .ok false => rfl
  | .error _ => rfl

theorem Logged.watch {a : Activation} (hactor : a.actor.isHashable = true) {earlier : Cooldowns}
    {m : Manager} {p : Progress} {t : Watch × List Number} (hlog : a.Logged earlier m p t)
    (room : Nat) (node : Node) (h : Heap) :
    a.Logged earlier (a.logger room node p h m t).2.1 p (a.logger room node p h m t).2.2 := by
  unfold logger
  rcases a.watcher_cases room node p h m t.1 with ⟨journal, late, hstops⟩ | ⟨hgoes, hrecords⟩
  · rw [hstops]
    exact ⟨⟨hlog.calm.direct, hlog.calm.quiet⟩, hlog.written, hlog.follows, hlog.empty⟩
  · obtain ⟨hwritten, hfollows⟩ := recordCooldown_follows hactor p h hlog.follows
    have hcalm := a.recordCooldown_calm p h hlog.calm t.1
    rcases hwatch : a.watcher room node p h m t.1 with ⟨answer, m', w'⟩
    rw [hwatch] at hgoes hrecords
    dsimp only at hgoes hrecords ⊢
    rw [← hrecords] at hwritten hfollows hcalm
    dsimp only at hwritten hfollows hcalm
    rw [logAfter_of_ne hgoes]
    refine ⟨hcalm, ?_, hfollows, fun hnone => ?_⟩
    · rw [hwritten, settled_append, hlog.written]
    · rw [hlog.empty hnone, hnone]
      rfl

/-- The scene of a run. -/
def scene (a : Activation) (m : Manager) : Scene Manager :=
  ⟨Manager.binding, m.config.limits, a.event⟩

theorem tracking {a : Activation} (hactor : a.actor.isHashable = true) (earlier : Cooldowns)
    (m : Manager) :
    Exec.Tracking (a.scene m) a.logger a.watcher Prod.fst (a.Logged earlier) where
  depth _ hlog := ⟨hlog.calm, hlog.written, hlog.follows, hlog.empty⟩
  locals _ hlog := ⟨hlog.calm, hlog.written, hlog.follows, hlog.empty⟩
  phase _ hlog := ⟨hlog.calm, hlog.written, hlog.follows, hlog.empty⟩
  coolDown _ _ hlog := ⟨hlog.calm, hlog.written, hlog.follows, nofun⟩
  write _ _ hlog := ⟨⟨hlog.calm.direct, hlog.calm.quiet.of_routines rfl⟩, hlog.written, hlog.follows,
    hlog.empty⟩
  turn {w _ _ _} hchange hlog := by
    obtain ⟨hquiet, hstore, hdirect⟩ := Seat.Keeps.changes
      (fun room => Manager.keeps_quiet room w.cooldowns .direct) hchange
      ⟨hlog.calm.quiet, rfl, hlog.calm.direct⟩
    exact ⟨⟨hdirect, hquiet⟩, hlog.written, hstore ▸ hlog.follows, hlog.empty⟩
  exceed _ hlog := ⟨hlog.calm, hlog.written, hlog.follows, hlog.empty⟩
  watch {_ p _} room node h _ hlog :=
    Logged.watch (p := { p with steps := p.steps + 1 }) hactor
      ⟨hlog.calm, hlog.written, hlog.follows, hlog.empty⟩ room node h
  agrees _ _ _ _ _ _ := rfl

/-- A run that keeps a log. -/
def runLogged (a : Activation) (room : Nat) (h : Heap) (m : Manager) :
    Except Fault Outcome × State Manager (Watch × List Number) :=
  Interpreter.run ((a.scene m).watched (some a.logger)) room a.trigger.program
    ⟨h, m, .start a.locals, {}, []⟩

/-- Whether a run has ended by itself: it has an outcome, or someone catches what ended it. -/
def isOver {α : Type} : Except Fault α → Bool
  | .ok _ => true
  | .error fault => fault.isCaught

theorem isOver_iff {α : Type} {result : Except Fault α} :
    isOver result = true ↔ ∀ fault, result = .error fault → fault.isCaught = true := by
  cases result with
  | ok a => exact ⟨fun _ => nofun, fun _ => rfl⟩
  | error fault =>
      constructor
      · rintro hcaught _ ⟨⟩
        exact hcaught
      · exact fun hcaught => hcaught fault rfl

/-- The end that is come upon when a run is over, if it is over and has set one. -/
def lastEnd {α : Type} (result : Except Fault α) (p : Progress) : List Number :=
  if isOver result then p.cooldownEnd.toList else []

/-- The ends of cooldowns that a run sets, as they are come upon: before each node, and when the run
is over. -/
def ends (a : Activation) (room : Nat) (h : Heap) (m : Manager) : List Number :=
  (a.runLogged room h m).2.watch.2 ++
    lastEnd (a.runLogged room h m).1 (a.runLogged room h m).2.progress

section Runs

variable {a : Activation} (hactor : a.actor.isHashable = true) {m : Manager} (hm : m.IsCalm)
  (room : Nat) (h : Heap)

include hactor hm

theorem runLogged_spec :
    a.Logged m.cooldowns (a.runLogged room h m).2.world (a.runLogged room h m).2.progress
        (a.runLogged room h m).2.watch ∧
      a.run Manager.binding room h m =
        ((a.runLogged room h m).1, (a.runLogged room h m).2.mapWatch Prod.fst) :=
  (tracking hactor m.cooldowns m).run room a.trigger.program ⟨h, m, .start a.locals, {}, []⟩
    ⟨hm, rfl, .refl _ _, fun _ => rfl⟩

end Runs

/-! ### The end of a run -/

theorem tellFailure_frame (a : Activation) (fault : Fault) (h : Heap) (m : Manager) :
    ∃ journal messages, (a.tellFailure fault h m).2 = { m with journal, messages } := by
  unfold tellFailure
  split
  · exact Manager.foldl_notify_frame h a.actor _ m
  · exact m.notify_frame h a.actor errorNotice

theorem reportEnd_frame (a : Activation) (result : Except Fault Outcome) (h : Heap) (m : Manager) :
    ∃ journal messages, (a.reportEnd result h m).2 = { m with journal, messages } := by
  cases result with
  | ok outcome => exact ⟨_, _, rfl⟩
  | error fault =>
      show ∃ journal messages, (a.reportFailure fault h m).2 = _
      unfold reportFailure
      cases fault.wording with
      | error unworded =>
          dsimp only
          split
          · exact ⟨_, _, rfl⟩
          · exact a.tellFailure_frame fault h m
      | ok text =>
          dsimp only
          split
          · exact ⟨_, _, rfl⟩
          · obtain ⟨journal, messages, htold⟩ := a.tellFailure_frame fault h (m.report _)
            exact ⟨journal, messages, htold⟩

theorem wrapUp_frame (a : Activation) (result : Except Fault Outcome) (h : Heap) (m : Manager)
    (p : Progress) (w : Watch) :
    ∃ before recorded journal messages,
      (a.recordCooldown p h { m with journal := before } w).2.1 = recorded ∧
        (a.wrapUp result ⟨h, m, p, w⟩).2.2 = { recorded with journal, messages } := by
  unfold wrapUp
  dsimp only
  split
  · rename_i hrecord
    cases result <;> exact ⟨_, _, _, _, congrArg (·.2.1) hrecord, rfl⟩
  · rename_i m₁ _ hrecord
    obtain ⟨journal, messages, hreport⟩ := a.reportEnd_frame result h m₁
    cases result <;> exact ⟨_, _, journal, messages, congrArg (·.2.1) hrecord, hreport⟩

theorem finish_eq (a : Activation) (result : Except Fault Outcome) (s : State Manager Watch) :
    (isOver result = true ∧ a.finish result s = a.wrapUp result s) ∨
      (isOver result = false ∧ (a.finish result s).2 = (s.heap, s.world)) := by
  cases result with
  | ok outcome => exact .inl ⟨rfl, rfl⟩
  | error fault =>
      cases hcaught : fault.isCaught with
      | true => exact .inl ⟨hcaught, if_pos hcaught⟩
      | false =>
          refine .inr ⟨hcaught, ?_⟩
          rw [finish, hcaught]
          rfl

theorem finish_calm (a : Activation) {m : Manager} (hm : m.IsCalm) (result : Except Fault Outcome)
    (h : Heap) (p : Progress) (w : Watch) : (a.finish result ⟨h, m, p, w⟩).2.2.IsCalm := by
  rcases a.finish_eq result ⟨h, m, p, w⟩ with ⟨-, hfinish⟩ | ⟨-, hfinish⟩
  · obtain ⟨before, recorded, journal, messages, rfl, hwrap⟩ := a.wrapUp_frame result h m p w
    have hcalm := a.recordCooldown_calm p h (m := { m with journal := before })
      ⟨hm.direct, hm.quiet⟩ w
    rw [hfinish, hwrap]
    exact ⟨hcalm.direct, hcalm.quiet⟩
  · rw [hfinish]
    exact hm

theorem finish_follows {a : Activation} (hactor : a.actor.isHashable = true) {earlier : Cooldowns}
    {m : Manager} {w : Watch} (hfollows : Follows a.actor w.written earlier m.cooldowns)
    (result : Except Fault Outcome) (h : Heap) (p : Progress) :
    Follows a.actor ((lastEnd result p).foldl note w.written) earlier
      (a.finish result ⟨h, m, p, w⟩).2.2.cooldowns := by
  rcases a.finish_eq result ⟨h, m, p, w⟩ with ⟨hover, hfinish⟩ | ⟨hover, hfinish⟩
  · obtain ⟨before, recorded, journal, messages, rfl, hwrap⟩ := a.wrapUp_frame result h m p w
    obtain ⟨hwritten, hrecord⟩ :=
      recordCooldown_follows (m := { m with journal := before }) hactor p h hfollows
    rw [hwritten] at hrecord
    rw [hfinish, hwrap, lastEnd, if_pos hover]
    exact hrecord
  · rw [hfinish, lastEnd, hover]
    exact hfollows

/-- **What is written down in a run**: whatever becomes of it, the store holds for the actor what is
left of the ends that were set, and for others what it held before. -/
theorem perform_follows {a : Activation} (hactor : a.actor.isHashable = true) {m : Manager}
    (hm : m.IsCalm) (room : Nat) (h : Heap) :
    (a.perform Manager.binding room h m).2.2.IsCalm ∧
      Follows a.actor (settled (a.ends room h m)) m.cooldowns
        (a.perform Manager.binding room h m).2.2.cooldowns := by
  obtain ⟨hlog, hrun⟩ := runLogged_spec hactor hm room h
  rw [perform, hrun, ends, settled_append, ← hlog.written]
  exact ⟨a.finish_calm hlog.calm _ _ _ _, finish_follows hactor hlog.follows _ _ _⟩

end Activation

end TriggerEngine
