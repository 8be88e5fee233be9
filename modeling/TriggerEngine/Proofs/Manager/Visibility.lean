/-
**A cooldown is seen at once.**

A script sets a cooldown, and the end of it is written down at the next node.  Before that node
nothing is called: the node of a routine is visited before the routine is called, and its arguments,
which are evaluated in between, set no cooldown.  So every routine that is called in a run finds the
end that the run has come to in the store, and when the run is over everyone finds it there.

Main definitions:

* `Cooldowns.Shows` — what a store shows of the end that a run has come to;
* `Activation.Recording` — what the steps of a run keep;
* `Activation.Current` — what the steps of an expression keep: the end is written down;
* `Task.IsUnderway` — an expression is evaluated that has been visited.

Main results:

* `Activation.recording`, `Activation.currency` — these are kept;
* `Activation.current_of_visit` — when a node has been visited, the end is written down;
* `Activation.current_of_course` — it is written down whenever an expression is evaluated;
* `cooldown_visible` — **a cooldown is seen at once**.
-/

import TriggerEngine.Proofs.Manager.Recording
import TriggerEngine.Proofs.Run.Cooling

set_option autoImplicit false

namespace TriggerEngine

/-! ### What a store shows -/

namespace Cooldowns

theorem get?_of_isHashable (c : Cooldowns) {k : Value} (h : k.isHashable = true) :
    c.get? k = .ok ((Heap.entryGet? c.ends k).getD .null) := by
  rw [get?, checkActor, if_pos h]
  rfl

/-- What a store shows under a key if a run has come to an end: that end, or one that is worth as
much.  If the run has come to none, the store shows what an earlier one does. -/
structure Shows (earlier : Cooldowns) (k : Value) (found : Option Number) (c : Cooldowns) : Prop where
  idle : found = none → c.get? k = earlier.get? k
  own : ∀ stop, found = some stop → ∃ left mark, c.get? k = .ok (.ofNumber left mark) ∧
    (left = stop ∨ stop.eq left = true)

/-- What is known of the end that a run has come to: that end, or one that is worth as much; and
nothing if there is none. -/
def Tells (known found : Option Number) : Prop :=
  match found with
  | none => known = none
  | some stop => ∃ left, known = some left ∧ (left = stop ∨ stop.eq left = true)

theorem tells_note {known found : Option Number} (h : found = none → known = none) :
    Tells (found.toList.foldl note known) found := by
  cases found with
  | none => exact h rfl
  | some stop => exact note_cases known stop

theorem Follows.shows {actor : Value} {known found : Option Number} {earlier c : Cooldowns}
    (h : Follows actor known earlier c) (htells : Tells known found)
    (hactor : actor.isHashable = true) (hnull : actor.isNull = false) {k : Value}
    (hk : Heap.sameKey actor k = true) : Shows earlier k found c := by
  have hhash : k.isHashable = true := (Heap.isHashable_eq_of_sameKey hk).symm.trans hactor
  have hk' : k.isNull = false := (Heap.isNull_eq_of_sameKey hk).symm.trans hnull
  constructor
  · rintro rfl
    rw [get?_of_isHashable c hhash, get?_of_isHashable earlier hhash, h.idle htells k]
  · rintro stop rfl
    obtain ⟨left, rfl, hleft⟩ := htells
    obtain ⟨mark, hmark⟩ := h.own left rfl k hk' hk
    refine ⟨left, mark, ?_, hleft⟩
    rw [get?_of_isHashable c hhash, hmark]
    rfl

end Cooldowns

/-! ### What is kept in a run -/

namespace Task

/-- Whether something is called: what is registered under a name, or a value. -/
def IsCall : Task → Prop
  | .named .. | .called .. => True
  | _ => False

/-- Whether an expression is evaluated that has been visited: its rule is applied, or what it calls
is called. -/
def IsUnderway : Task → Prop
  | .evaluation .. | .named .. | .called .. => True
  | _ => False

theorem IsCall.isUnderway {task : Task} (h : task.IsCall) : task.IsUnderway := by
  cases task with
  | named => trivial
  | called => trivial
  | _ => cases h

end Task

namespace Activation

open Cooldowns

/-- What the steps of a run keep: the store is an earlier one with what the watcher has written
down, and that is nothing as long as no cooldown is set. -/
structure Recording (a : Activation) (earlier : Cooldowns) (m : Manager) (p : Progress) (w : Watch) :
    Prop where
  quiet : m.host.IsQuiet
  follows : Follows a.actor w.written earlier m.cooldowns
  empty : p.cooldownEnd = none → w.written = none

/-- What the steps of an expression keep: the end that the run has come to is written down. -/
structure Current (a : Activation) (earlier : Cooldowns) (m : Manager) (p : Progress) (w : Watch) :
    Prop extends Recording a earlier m p w where
  tells : Tells w.written p.cooldownEnd

section Steps

variable {a : Activation} {earlier : Cooldowns} {m m' : Manager} {p : Progress} {w : Watch}

theorem Recording.of_store (hrec : a.Recording earlier m p w) (hquiet : m'.host.IsQuiet)
    (hstore : m'.cooldowns = m.cooldowns) : a.Recording earlier m' p w :=
  ⟨hquiet, hstore ▸ hrec.follows, hrec.empty⟩

theorem Recording.of_progress {p' : Progress} (hrec : a.Recording earlier m p w)
    (hend : p'.cooldownEnd = p.cooldownEnd) : a.Recording earlier m p' w :=
  ⟨hrec.quiet, hrec.follows, fun hnone => hrec.empty (hend.symm.trans hnone)⟩

theorem recordCooldown_host (a : Activation) (p : Progress) (h : Heap) (m : Manager) (w : Watch) :
    (a.recordCooldown p h m w).2.1.host = m.host := by
  obtain ⟨journal, hframe | ⟨stop, mark, hframe⟩⟩ := a.recordCooldown_frame p h m w
  · rw [hframe]
  · rw [hframe]

variable (hactor : a.actor.isHashable = true)

include hactor

theorem Recording.record (hrec : a.Recording earlier m p w) (h : Heap) :
    a.Current earlier (a.recordCooldown p h m w).2.1 p (a.recordCooldown p h m w).2.2 := by
  obtain ⟨hwritten, hfollows⟩ := recordCooldown_follows hactor p h hrec.follows
  have htells : Tells (a.recordCooldown p h m w).2.2.written p.cooldownEnd :=
    hwritten ▸ tells_note hrec.empty
  refine ⟨⟨?_, hfollows, fun hnone => ?_⟩, htells⟩
  · rw [recordCooldown_host]
    exact hrec.quiet
  · rw [hwritten, hrec.empty hnone, hnone]
    rfl

theorem Recording.watch (hrec : a.Recording earlier m p w) (room : Nat) (node : Node) (h : Heap) :
    (∃ journal late,
      a.watcher room node p h m w = (.ok true, { m with journal }, { w with late })) ∨
      a.Current earlier (a.watcher room node p h m w).2.1 p (a.watcher room node p h m w).2.2 := by
  rcases a.watcher_cases room node p h m w with hstops | ⟨-, hrecords⟩
  · exact .inl hstops
  · rw [hrecords]
    exact .inr (hrec.record hactor h)

end Steps

section Runs

variable {a : Activation} (hactor : a.actor.isHashable = true) (earlier : Cooldowns) (m : Manager)

include hactor

theorem recording :
    Exec.Tracking (a.scene m) a.watcher a.watcher id (a.Recording earlier) where
  depth _ hrec := hrec.of_progress rfl
  locals _ hrec := hrec.of_progress rfl
  phase _ hrec := hrec.of_progress rfl
  coolDown _ _ hrec := ⟨hrec.quiet, hrec.follows, nofun⟩
  write _ _ hrec := hrec.of_store (hrec.quiet.of_routines rfl) rfl
  turn {w _ _ _} hchange hrec := by
    obtain ⟨hquiet, hstore, -⟩ := Seat.Keeps.changes
      (fun room => Manager.keeps_quiet room w.cooldowns w.spawner) hchange ⟨hrec.quiet, rfl, rfl⟩
    exact hrec.of_store hquiet hstore
  exceed _ hrec := hrec.of_progress rfl
  watch {_ p _} room node h _ hrec := by
    have hrec' : a.Recording earlier _ { p with steps := p.steps + 1 } _ := hrec.of_progress rfl
    intro p'
    rcases hrec'.watch hactor room node h with ⟨journal, late, hstops⟩ | hcurrent
    · rw [hstops]
      exact ⟨hrec.quiet, hrec.follows, hrec.empty⟩
    · exact hcurrent.toRecording
  agrees _ _ _ _ _ _ := rfl

theorem currency :
    Exec.ExpressionTracking (a.scene m) a.watcher a.watcher id (a.Current earlier) where
  depth _ hcur := ⟨hcur.of_progress rfl, hcur.tells⟩
  turn hchange hcur := ⟨(recording hactor earlier m).turn hchange hcur.toRecording, hcur.tells⟩
  exceed _ hcur := ⟨hcur.of_progress rfl, hcur.tells⟩
  watch {_ p _} room node h _ hcur := by
    have hrec : a.Recording earlier _ { p with steps := p.steps + 1 } _ := hcur.of_progress rfl
    intro p'
    rcases hrec.watch hactor room node h with ⟨journal, late, hstops⟩ | hcurrent
    · rw [hstops]
      exact ⟨⟨hcur.quiet, hcur.follows, hcur.empty⟩, hcur.tells⟩
    · exact hcurrent
  agrees _ _ _ _ _ _ := rfl

variable {earlier m}

theorem current_of_visit {node : Node} {room : Nat} {s s' : State Manager Watch}
    (hs : a.Recording earlier s.world s.progress s.watch)
    (hvisit : (Exec.visit (a.setting Manager.binding m) node room).runFrom s = (.ok (), s')) :
    a.Current earlier s'.world s'.progress s'.watch := by
  obtain ⟨h, w, p, t⟩ := s
  by_cases hlimit : m.config.limits.steps.most < p.steps + 1
  · rw [Exec.runFrom_visit_of_lt hlimit] at hvisit
    cases hvisit
  · have hrec : a.Recording earlier w { p with steps := p.steps + 1 } t := hs.of_progress rfl
    rw [Exec.runFrom_visit_some hlimit rfl] at hvisit
    rcases hrec.watch hactor room node h with ⟨journal, late, hstops⟩ | hcurrent
    · rw [hstops] at hvisit
      cases hvisit
    · obtain rfl := congrArg Prod.snd hvisit
      exact hcurrent

theorem current_of_leads {c c' : Moment Manager Watch}
    (h : Exec.Leads (a.setting Manager.binding m) c c')
    (hrec : a.Recording earlier c.state.world c.state.progress c.state.watch)
    (hcur : c.task.IsUnderway → a.Current earlier c.state.world c.state.progress c.state.watch)
    (hc' : c'.task.IsUnderway) :
    a.Current earlier c'.state.world c'.state.progress c'.state.watch := by
  have T := currency hactor earlier m
  cases h with
  | @expressionRule _ _ s _ _ hvisit _ =>
      have hdeep := (recording hactor earlier m).depth (s.progress.depth + 1) hrec
      exact current_of_visit (s := s.deepened) hactor hdeep hvisit
  | named _ hargs hasked =>
      exact (T.consult _ _).keeps ((T.evaluateAll _ _).keeps (hcur trivial) hargs) hasked
  | called hcallee _ hargs =>
      exact (T.evaluateAll _ _).keeps ((T.eval _ _).keeps (hcur trivial) hcallee) hargs
  | _ => exact False.elim hc'

variable (hm : m.host.IsQuiet) (room : Nat) (h : Heap)

include hm

theorem current_of_course {c : Moment Manager Watch}
    (hc : Interpreter.Course (a.setting Manager.binding m) room a.trigger.program
      ⟨h, m, .start a.locals, {}⟩ c) (htask : c.task.IsUnderway) :
    a.Current m.cooldowns c.state.world c.state.progress c.state.watch := by
  induction hc with
  | refl => cases htask
  | tail hcourse hleads ih =>
      have hrec := Interpreter.Course.keeps (recording hactor m.cooldowns m).keeps hcourse
        ⟨hm, .refl _ _, fun _ => rfl⟩
      exact current_of_leads hactor hleads hrec ih htask

theorem perform_tells (hover : isOver (a.run Manager.binding room h m).1 = true) :
    ∃ known, Tells known (a.run Manager.binding room h m).2.progress.cooldownEnd ∧
      Follows a.actor known m.cooldowns (a.perform Manager.binding room h m).2.2.cooldowns := by
  obtain ⟨hrec, -⟩ := (recording hactor m.cooldowns m).run room a.trigger.program
    ⟨h, m, .start a.locals, {}⟩ ⟨hm, .refl _ _, fun _ => rfl⟩
  have hfollows := finish_follows hactor hrec.follows (a.run Manager.binding room h m).1
    (a.run Manager.binding room h m).2.heap (a.run Manager.binding room h m).2.progress
  rw [lastEnd, if_pos hover] at hfollows
  exact ⟨_, tells_note hrec.empty, hfollows⟩

end Runs

end Activation

/-! ### Seeing a cooldown -/

/-- **A cooldown is seen at once.**  Let a run be started for an actor, on a manager whose host
fires no triggers, and look at the store for that actor.  At every call of the run the store shows
the end that the run has come to, and it has come to one if a cooldown was set before.  When the run
is over, completed, aborted or failed, the store shows the end that it was left with; and it was
left with one if and only if it set a cooldown, so if it did not the store shows what it showed
before the run.  No call is missed: a host that does the same at the moments of the run makes no
difference to it. -/
theorem cooldown_visible {a : Activation} (hactor : a.actor.isHashable = true)
    (hnull : a.actor.isNull = false) {m : Manager} (hm : m.host.IsQuiet) (room : Nat) (h : Heap)
    {k : Value} (hk : Heap.sameKey a.actor k = true) :
    let env := a.setting Manager.binding m
    let start : State Manager Activation.Watch := ⟨h, m, .start a.locals, {}⟩
    let r := a.run Manager.binding room h m
    (∀ c, Interpreter.Course env room a.trigger.program start c → c.task.IsCall →
      Cooldowns.Shows m.cooldowns k c.state.progress.cooldownEnd c.state.world.cooldowns ∧
      ∀ c', Interpreter.Precedes env room a.trigger.program start c' c → c'.Cools env →
        c.state.progress.cooldownEnd.isSome = true) ∧
    (((∀ fault, r.1 = .error fault → fault.isCaught = true) →
        Cooldowns.Shows m.cooldowns k r.2.progress.cooldownEnd
          (a.perform Manager.binding room h m).2.2.cooldowns) ∧
      (r.2.progress.cooldownEnd.isSome = true ↔
        ∃ c, Interpreter.Course env room a.trigger.program start c ∧ c.Cools env)) ∧
    ∀ other, (∀ c, Interpreter.Course env room a.trigger.program start c → c.Agrees env other) →
      Interpreter.run (env.served other) room a.trigger.program start = r := by
  intro env start r
  refine ⟨fun c hc hcall => ⟨?_, fun c' hbefore hcools => ?_⟩, ⟨?_, ?_⟩, fun other hother => ?_⟩
  · have hcurrent := Activation.current_of_course hactor hm room h hc hcall.isUnderway
    exact hcurrent.follows.shows hcurrent.tells hactor hnull hk
  · exact Interpreter.Precedes.isSome_cooldownEnd (S := a.scene m) hbefore hcools
  · intro hcaught
    obtain ⟨known, htells, hfollows⟩ :=
      Activation.perform_tells hactor hm room h (Activation.isOver_iff.2 hcaught)
    exact hfollows.shows htells hactor hnull hk
  · exact Interpreter.isSome_cooldownEnd_run_iff (S := a.scene m) rfl rfl
  · exact Interpreter.run_served hother

/-! ### A script that is seen -/

namespace Manager

/-- A script that sets a cooldown of five seconds and then lets seven pass. -/
def resting : Trigger :=
  ⟨some "resting", "set cooldown to 5\n#rest 7",
    [.cooldown (.literal .number (.int 5) (.number 1) 17) (.number 1),
      .expression (.reference .executor (.word "rest") [.literal .number (.int 7) (.number 2) 7]
        (.number 2)) (.number 2)]⟩

/-- A manager whose host lets time pass when it is asked to. -/
def withRest : Manager :=
  { host :=
      { clock := .int 0
        routines := #[⟨"executor", "rest", Routine.wait⟩]
        executors := ⟨.role .executor, ⟨[("rest", .routine 0 .direct)]⟩⟩ }
    config := .default }

theorem isQuiet_withRest : withRest.host.IsQuiet := by
  intro id call
  match id with
  | 0 =>
      show (Routine.wait call).Asks Request.IsQuiet
      unfold Routine.wait Routine.withFirst
      split
      · refine ⟨nofun, fun reply => ?_⟩
        cases reply with
        | ok v => exact trivial
        | error fault => exact trivial
      · exact trivial
  | id + 1 => exact trivial

/-- The activation of the script. -/
def rest : Activation :=
  ⟨resting, .null, .text "a", .empty, .int 0, fun _ elapsed => elapsed⟩

/-- What its run is set up with. -/
def restSetting : Setting Manager Activation.Watch :=
  rest.setting binding withRest

/-- The state in which its run starts. -/
def restStart : State Manager Activation.Watch :=
  ⟨{}, withRest, .start .empty, {}⟩

end Manager

example : compile "resting" Manager.resting.source = .ok Manager.resting.program := by cbv

theorem Exec.exists_runFrom_eq_ok {ω τ α : Type} {x : Exec ω τ α} {s : State ω τ}
    (h : (x.runFrom s).1.isOk = true) : ∃ a, x.runFrom s = (.ok a, (x.runFrom s).2) := by
  rcases hrun : x.runFrom s with ⟨_ | a, s'⟩
  · rw [hrun] at h
    cases h
  · exact ⟨a, rfl⟩

namespace Manager

theorem exists_call_rest :
    ∃ c c' args, Interpreter.Course restSetting 20 resting.program restStart c ∧
      c.task = .named .executor "rest" args ∧
      Interpreter.Precedes restSetting 20 resting.program restStart c' c ∧ c'.Cools restSetting ∧
      c.state.progress.cooldownEnd.any (fun stop => stop.eq (.int 5)) = true := by
  let first : Node := .cooldown (.literal .number (.int 5) (.number 1) 17) (.number 1)
  let args : List Node := [.literal .number (.int 7) (.number 2) 7]
  let call : Node := .reference .executor (.word "rest") args (.number 2)
  let second : Node := .expression call (.number 2)
  let s := Interpreter.inPhase .running restStart
  let s₁ := ((Exec.visit restSetting first 19).runFrom s).2
  let s₂ := ((Exec.exec restSetting first 20).runFrom s).2
  let s₃ := ((Exec.visit restSetting second 19).runFrom s₂).2
  let s₄ := ((Exec.visit restSetting call 18).runFrom s₃.deepened).2
  let s₅ := ((Exec.evaluateAll restSetting args 16).runFrom s₄).2
  let s₆ := ((Exec.consult restSetting 18 (.lookup .executor "rest")).runFrom s₅).2
  obtain ⟨_, hvisit⟩ : ∃ a, (Exec.visit restSetting first 19).runFrom s = (.ok a, s₁) :=
    Exec.exists_runFrom_eq_ok (by decide +kernel)
  obtain ⟨_, hset⟩ := Exec.exists_runFrom_eq_ok (x := Exec.execute restSetting first 20) (s := s₁)
    (by decide +kernel)
  obtain ⟨_, hfirst⟩ : ∃ a, (Exec.exec restSetting first 20).runFrom s = (.ok a, s₂) :=
    Exec.exists_runFrom_eq_ok (by decide +kernel)
  obtain ⟨_, hsecond⟩ : ∃ a, (Exec.visit restSetting second 19).runFrom s₂ = (.ok a, s₃) :=
    Exec.exists_runFrom_eq_ok (by decide +kernel)
  have hdepth : ¬restSetting.limits.depth.most < s₃.progress.depth + 1 := by decide +kernel
  obtain ⟨_, hcall⟩ : ∃ a, (Exec.visit restSetting call 18).runFrom s₃.deepened = (.ok a, s₄) :=
    Exec.exists_runFrom_eq_ok (by decide +kernel)
  have hknown : restSetting.binding.isRegistered .executor "rest" s₄.world = true := by
    decide +kernel
  obtain ⟨values, hargs⟩ : ∃ a, (Exec.evaluateAll restSetting args 16).runFrom s₄ = (.ok a, s₅) :=
    Exec.exists_runFrom_eq_ok (by decide +kernel)
  obtain ⟨_, hasked⟩ : ∃ a, (Exec.consult restSetting 18 (.lookup .executor "rest")).runFrom s₅ =
      (.ok a, s₆) :=
    Exec.exists_runFrom_eq_ok (by decide +kernel)
  have hfive : s₆.progress.cooldownEnd.any (fun stop => stop.eq (.int 5)) = true := by
    decide +kernel
  -- From here on the states are not to be computed again.
  clear_value s₁ s₂ s₃ s₄ s₅ s₆
  have hlater : Relation.ReflTransGen (Exec.Leads restSetting) ⟨.statements [second], 20, s₂⟩
      ⟨.named .executor "rest" values, 18, s₆⟩ := by
    refine .head .firstStatement (.head (.statementRule (by decide) hsecond) (.head .expression ?_))
    exact .head (.expressionRule hdepth hcall (by decide)) (.single (.named hknown hargs hasked))
  have hprecedes : Interpreter.Precedes restSetting 20 resting.program restStart
      ⟨.execution first, 20, s₁⟩ ⟨.named .executor "rest" values, 18, s₆⟩ :=
    ⟨_, _, _, .refl, .statements hfirst, .single (.statementRule (by decide) hvisit), hlater⟩
  exact ⟨_, _, values, hprecedes.course.2, rfl, hprecedes, ⟨_, _, _, rfl, hset⟩, hfive⟩

end Manager

open Manager in
/-- When the host is called to let time pass, the store shows the end of the cooldown that was set,
and so it does when the run is over. -/
theorem cooldown_visible_resting :
    (∃ c c' args stop, Interpreter.Course restSetting 20 resting.program restStart c ∧
      c.task = .named .executor "rest" args ∧
      Interpreter.Precedes restSetting 20 resting.program restStart c' c ∧ c'.Cools restSetting ∧
      c.state.progress.cooldownEnd = some stop ∧ stop.eq (.int 5) = true ∧
      Cooldowns.Shows withRest.cooldowns (.text "a") (some stop) c.state.world.cooldowns) ∧
    ∃ stop, (rest.run binding 20 {} withRest).2.progress.cooldownEnd = some stop ∧
      stop.eq (.int 5) = true ∧
      Cooldowns.Shows withRest.cooldowns (.text "a") (some stop)
        (rest.perform binding 20 {} withRest).2.2.cooldowns := by
  have hvisible := cooldown_visible (a := rest) (k := .text "a") rfl rfl
    isQuiet_withRest 20 {} rfl
  obtain ⟨c, c', args, hc, htask, hprecedes, hcools, hany⟩ := exists_call_rest
  obtain ⟨stop, hstop, hfive⟩ := (Option.any_eq_true _ _).1 hany
  obtain ⟨stop', hstop', hfive'⟩ := (Option.any_eq_true (fun stop => stop.eq (.int 5))
    (rest.run binding 20 {} withRest).2.progress.cooldownEnd).1 (by decide +kernel)
  refine ⟨⟨c, c', args, stop, hc, htask, hprecedes, hcools, hstop, hfive, ?_⟩, stop', hstop', hfive',
    ?_⟩
  · rw [← hstop]
    exact (hvisible.1 c hc (by rw [htask]; trivial)).1
  · rw [← hstop']
    exact hvisible.2.1.1 (Activation.isOver_iff.1 (by decide +kernel))

end TriggerEngine
