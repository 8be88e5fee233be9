/-
**Shutting a manager down.**

A manager that is shut down stays so.  What is under way then comes to an end: the watcher of every
run, however many runs are nested, stops it at the next node.  What has not been started yet does
nothing, since its first node is where it is stopped; and nothing more is handed over to be started.

Main definitions:

* `State.Halted` — the watcher was asked at most once in a world in which it stops the run;
* `Manager.Later` — what may happen to a manager from outside, with waiting runs in any order.

Main results:

* `Exec.Halts.run` — a run stops at the first node at which its watcher is to stop it;
* `Activation.perform_of_closed` — what is started too late does nothing;
* `Manager.Later.rests` — nothing happens any more to the host and the store;
* `shutdown_ends_runs` — **shutting a manager down ends its runs**.
-/

import TriggerEngine.Proofs.Manager.Upkeep
import TriggerEngine.Proofs.Run.Interrupt
import TriggerEngine.Proofs.Run.Lifecycle

set_option autoImplicit false

namespace TriggerEngine

variable {ω τ α β : Type}

/-! ### Runs that are stopped -/

/-- Whether every node was visited in a world in which the run may go on. -/
structure State.Undisturbed (shut : ω → Prop) (s : State ω (τ × List (Sighting ω))) : Prop where
  steps : s.progress.steps = s.watch.2.length
  seen : ∀ seen ∈ s.watch.2, ¬shut seen.world

/-- Whether at most one node was visited in a world in which the run is to be stopped, the last. -/
def State.Halted (shut : ω → Prop) (s : State ω (τ × List (Sighting ω))) : Prop :=
  ∃ before after, s.watch.2 = before ++ after ∧ (∀ seen ∈ before, ¬shut seen.world) ∧
    (∀ seen ∈ after, shut seen.world) ∧ after.length ≤ 1 ∧ s.progress.steps ≤ before.length + 1

theorem State.Undisturbed.halted {shut : ω → Prop} {s : State ω (τ × List (Sighting ω))}
    (h : s.Undisturbed shut) : s.Halted shut :=
  ⟨s.watch.2, [], (List.append_nil _).symm, h.seen, by simp, by simp, by rw [h.steps]; omega⟩

namespace Exec

/-- Whether a part of a run is stopped at the first node at which it is to be. -/
def Halts (shut : ω → Prop) (x : Exec ω (τ × List (Sighting ω)) α) : Prop :=
  ∀ s, s.Undisturbed shut → (x.runFrom s).2.Halted shut ∧
    (goesOn (x.runFrom s).1 = true → (x.runFrom s).2.Undisturbed shut)

namespace Halts

variable {shut : ω → Prop}

theorem of_quiet {x : Exec ω (τ × List (Sighting ω)) α} {y : Exec ω τ α} (hq : Quiet x y) :
    Halts shut x := by
  intro ⟨h, w, p, t⟩ hs
  obtain ⟨result, h', w', p', hsteps, hx, -⟩ := hq h w p
  rw [hx]
  have hs' : State.Undisturbed shut (⟨h', w', p', t⟩ : State ω (τ × List (Sighting ω))) :=
    ⟨hsteps.trans hs.steps, hs.seen⟩
  exact ⟨hs'.halted, fun _ => hs'⟩

theorem bind {x : Exec ω (τ × List (Sighting ω)) α} {f : α → Exec ω (τ × List (Sighting ω)) β}
    (hx : Halts shut x) (hf : ∀ a, Halts shut (f a)) : Halts shut (x >>= f) := by
  intro s hs
  obtain ⟨hhalted, hgoes⟩ := hx s hs
  rcases hrun : x.runFrom s with ⟨stop | a, s'⟩
  · rw [hrun] at hhalted hgoes
    rw [runFrom_bind_of_error hrun]
    exact ⟨hhalted, fun h => hgoes (goesOn_error.trans h)⟩
  · rw [hrun] at hgoes
    rw [runFrom_bind_of_ok hrun]
    exact hf a s' (hgoes rfl)

theorem read {f : State ω (τ × List (Sighting ω)) → Exec ω (τ × List (Sighting ω)) α}
    (hf : ∀ s, Halts shut (f s)) : Halts shut (get >>= f) :=
  fun s hs => hf s s hs

theorem deeper {most : Nat} {limit : Unit → Fault} {x : Exec ω (τ × List (Sighting ω)) α}
    (hx : Halts shut x) : Halts shut (Exec.deeper most limit x) := by
  intro ⟨h, w, p, t⟩ hs
  rw [runFrom_deeper]
  dsimp only
  split
  · have hs' : State.Undisturbed shut (⟨h, w, p, t⟩ : State ω (τ × List (Sighting ω))) := hs
    exact ⟨hs'.halted, fun _ => hs'⟩
  · obtain ⟨hhalted, hgoes⟩ := hx ⟨h, w, { p with depth := p.depth + 1 }, t⟩ ⟨hs.steps, hs.seen⟩
    exact ⟨hhalted, fun h => ⟨(hgoes h).steps, (hgoes h).seen⟩⟩

theorem round {x : Exec ω (τ × List (Sighting ω)) Unit} (hx : Halts shut x) :
    Halts shut (Exec.round x) := by
  intro s hs
  obtain ⟨hhalted, hgoes⟩ := hx s hs
  rw [runFrom_round]
  exact ⟨hhalted, fun h => hgoes (goesOn_of_heard h)⟩

theorem visit {S : Scene ω} {watcher : Watcher ω τ}
    (hstops : ∀ room node p h w t, shut w → (watcher room node p h w t).1 = .ok true) (node : Node)
    (room : Nat) : Halts shut (Exec.visit (S.watched (some watcher.noting)) node room) := by
  intro ⟨h, w, p, t⟩ hs
  by_cases hlimit : S.limits.steps.most < p.steps + 1
  · rw [runFrom_visit_of_lt hlimit]
    refine ⟨⟨t.2, [], (List.append_nil _).symm, hs.seen, by simp, by simp, ?_⟩, fun hgoes => ?_⟩
    · exact Nat.succ_le_succ hs.steps.le
    · rw [goesOn, (node.isFor_faultAt _).isSignal] at hgoes
      cases hgoes
  · rw [runFrom_visit_some hlimit rfl]
    by_cases hshut : shut w
    · have hanswer := hstops room node { p with steps := p.steps + 1 } h w t.1 hshut
      refine ⟨⟨t.2, _, rfl, hs.seen, ?_, by simp, Nat.succ_le_succ hs.steps.le⟩, fun hgoes => ?_⟩
      · simpa using hshut
      · dsimp only [Watcher.noting] at hgoes
        rw [hanswer] at hgoes
        cases hgoes
    · have hs' : ∀ w', State.Undisturbed shut (⟨h, w', { p with steps := p.steps + 1 },
          (watcher room node { p with steps := p.steps + 1 } h w t.1).2.2,
          t.2 ++ [⟨node, { p with steps := p.steps + 1 }, w⟩]⟩ : State ω (τ × List (Sighting ω))) := by
        intro w'
        refine ⟨?_, List.forall_mem_append.2 ⟨hs.seen, by simpa using hshut⟩⟩
        rw [List.length_append, List.length_singleton, ← hs.steps]
      exact ⟨(hs' _).halted, fun _ => hs' _⟩

/-- A run stops at the first node at which its watcher is to stop it. -/
def coupling (S : Scene ω) {watcher : Watcher ω τ}
    (hstops : ∀ room node p h w t, shut w → (watcher room node p h w t).1 = .ok true) :
    Coupling S (some watcher.noting) (some watcher) :=
  .ofQuiet S (fun x _ => Halts shut x) of_quiet bind
    (fun hf => read fun s => hf s.heap s.world s.progress s.watch s.watch.1) (visit hstops) deeper
    round

/-- **A run stops at the first node at which its watcher is to stop it.** -/
theorem run (S : Scene ω) {watcher : Watcher ω τ}
    (hstops : ∀ room node p h w t, shut w → (watcher room node p h w t).1 = .ok true) (room : Nat)
    (program : Program) (h : Heap) (w : ω) (locals : Table Value) (t : τ) :
    (Interpreter.run (S.watched (some watcher.noting)) room program
      ⟨h, w, .start locals, t, []⟩).2.Halted shut := by
  have hhalts : Halts shut (execAll (S.watched (some watcher.noting)) program room) :=
    (coupling S hstops).execAll program false nofun room
  obtain ⟨hhalted, -⟩ := hhalts (Interpreter.inPhase .running ⟨h, w, .start locals, t, []⟩)
    ⟨rfl, by simp [Interpreter.inPhase]⟩
  rw [Interpreter.run_of_idle rfl]
  obtain ⟨phase, hphase⟩ := Interpreter.concluded_progress
    ((execAll (S.watched (some watcher.noting)) program room).runFrom
      (Interpreter.inPhase .running ⟨h, w, .start locals, t, []⟩))
  rw [hphase]
  exact hhalted

end Halts

end Exec

/-! ### Runs that are started too late -/

namespace Activation

variable {a : Activation} {m : Manager} (hclosed : m.closed = true)

include hclosed

theorem watcher_of_closed (room : Nat) (node : Node) (p : Progress) (h : Heap) (w : Watch) :
    a.watcher room node p h m w = (.ok true, m, w) := by
  rw [watcher, if_pos hclosed]

omit hclosed in
theorem stops_of_closed (a : Activation) (room : Nat) (node : Node) (p : Progress) (h : Heap)
    (m : Manager) (w : Watch) (hclosed : m.closed = true) :
    (a.watcher room node p h m w).1 = .ok true := by
  rw [watcher_of_closed hclosed]

theorem execAll_of_closed (program : Program) (room : Nat) (h : Heap) (p : Progress) (w : Watch) :
    ∃ result steps, ∀ binding, (Exec.execAll (a.setting binding m) program room).runFrom
      ⟨h, m, p, w⟩ = (result, ⟨h, m, { p with steps }, w⟩) := by
  cases program with
  | nil => exact ⟨.ok (), p.steps, fun _ => rfl⟩
  | cons node rest =>
      have hfirst : ∃ stop steps, ∀ binding, (Exec.exec (a.setting binding m) node room).runFrom
          ⟨h, m, p, w⟩ = (.error stop, ⟨h, m, { p with steps }, w⟩) := by
        cases room with
        | zero => exact ⟨_, p.steps, fun _ => rfl⟩
        | succ room =>
            by_cases hlimit : m.config.limits.steps.most < p.steps + 1
            · refine ⟨.fault (node.faultAt (.limit (.steps m.config.limits.steps.text))),
                p.steps + 1, fun binding => ?_⟩
              have hlimit' : (a.setting binding m).limits.steps.most < p.steps + 1 := hlimit
              exact Exec.runFrom_bind_of_error (Exec.runFrom_visit_of_lt hlimit' node h m w)
            · refine ⟨.abort, p.steps + 1, fun binding => Exec.runFrom_bind_of_error ?_⟩
              have hlimit' : ¬(a.setting binding m).limits.steps.most < p.steps + 1 := hlimit
              rw [Exec.runFrom_visit_some hlimit' rfl, watcher_of_closed hclosed]
              rfl
      obtain ⟨stop, steps, hrun⟩ := hfirst
      exact ⟨.error stop, steps, fun binding => Exec.runFrom_bind_of_error (hrun binding)⟩

theorem run_of_closed (room : Nat) (h : Heap) :
    ∃ result p, p.cooldownEnd = none ∧ ∀ binding, a.run binding room h m = (result, ⟨h, m, p, {}⟩) := by
  obtain ⟨result, steps, hrun⟩ := execAll_of_closed (a := a) hclosed a.trigger.program room h
    { Progress.start a.locals with phase := .running } {}
  have hconcluded : ∃ outcome p, p.cooldownEnd = none ∧
      Interpreter.concluded (result, (⟨h, m, { Progress.start a.locals with
        phase := .running, steps }, {}⟩ : State Manager Watch)) = (outcome, ⟨h, m, p, {}⟩) := by
    match result with
    | .ok () => exact ⟨_, _, rfl, rfl⟩
    | .error .abort => exact ⟨_, _, rfl, rfl⟩
    | .error (.fault _) => exact ⟨_, _, rfl, rfl⟩
  obtain ⟨outcome, p, hnone, hconcluded⟩ := hconcluded
  refine ⟨outcome, p, hnone, fun binding => ?_⟩
  rw [run, Interpreter.run_of_idle rfl, ← hconcluded]
  exact congrArg _ (hrun binding)

omit hclosed in
theorem wrapUp_of_none (a : Activation) (result : Except Fault Outcome) (h : Heap) (m : Manager)
    {p : Progress} (hnone : p.cooldownEnd = none) (w : Watch) :
    ∃ journal messages, (a.wrapUp result ⟨h, m, p, w⟩).2 = (h, { m with journal, messages }) := by
  have hrecord (m : Manager) : a.recordCooldown p h m w = (.ok (), m, w) := by
    rw [recordCooldown, hnone]
  unfold wrapUp
  dsimp only
  rw [hrecord]
  cases result with
  | ok o =>
      obtain ⟨journal, messages, hreport⟩ :=
        a.reportEnd_frame (.ok o) h (m.report (.ran o.phase.text o.steps))
      exact ⟨journal, messages, Prod.ext rfl hreport⟩
  | error raised =>
      obtain ⟨journal, messages, hreport⟩ := a.reportEnd_frame (.error raised) h m
      exact ⟨journal, messages, Prod.ext rfl hreport⟩

/-- **What is started too late does nothing**: it makes no call, since it does not matter what calls
of the host do, and leaves behind an entry and a message at most. -/
theorem perform_of_closed (room : Nat) (h : Heap) :
    ∃ result journal messages,
      ∀ binding, a.perform binding room h m = (result, h, { m with journal, messages }) := by
  obtain ⟨result, p, hnone, hrun⟩ := run_of_closed (a := a) hclosed room h
  have hfinish : ∃ journal messages,
      (a.finish result ⟨h, m, p, {}⟩).2 = (h, { m with journal, messages }) := by
    rcases a.finish_eq result ⟨h, m, p, {}⟩ with ⟨-, hover⟩ | ⟨-, hfallen⟩
    · rw [hover]
      exact wrapUp_of_none a result h m hnone {}
    · exact ⟨m.journal, m.messages, hfallen⟩
  obtain ⟨journal, messages, hfinish⟩ := hfinish
  refine ⟨(a.finish result ⟨h, m, p, {}⟩).1, journal, messages, fun binding => ?_⟩
  rw [perform, hrun binding, ← hfinish]

end Activation

/-! ### What may still happen -/

namespace Manager

theorem lasting_closed : Lasting fun m => m.closed = true where
  noted _ _ _ hm := hm
  queued _ hm := hm
  hosted _ hm := hm
  closed _ := rfl
  put _ _ _ hm := hm

variable {m m' : Manager}

theorem activateWith_of_closed (hclosed : m.closed = true) (perform : Performer)
    (trigger : Trigger) (event : Value) (locals : Table Value) (h : Heap) :
    activateWith perform trigger event locals h m = (.ok (), h,
      m.tell .warning ("Trigger " ++ trigger.label ++ " not activated: manager is shut down")) := by
  rw [activateWith, gate, if_pos hclosed]

theorem fireWith_of_closed (hclosed : m.closed = true) (perform : Performer) {name : Value}
    {trigger : Trigger} {h : Heap} (hname : m.named h name = .ok trigger) (event : Value)
    (locals : Table Value) :
    fireWith perform name event locals h m = (.ok (), h,
      m.tell .warning ("Trigger " ++ trigger.label ++ " not activated: manager is shut down")) := by
  rw [fireWith, hname]
  exact activateWith_of_closed hclosed perform trigger event locals h

/-- What may happen to a manager from outside: the runs that wait are started in any order, triggers
are activated, made and removed, and the host changes in some ways by itself. -/
inductive Later (Out : Host → Host → Prop) (m : Manager) : Manager → Prop
  | refl : Later Out m m
  | outside {m' : Manager} {host : Host} : Out m'.host host → Later Out m m' →
      Later Out m { m' with host }
  | perform {m' : Manager} {a : Activation} {front back : List Activation} (h : Heap) :
      m'.pending = front ++ a :: back → Later Out m m' →
      Later Out m (Manager.perform a h { m' with pending := front ++ back }).2.2
  | pump {m' : Manager} (h : Heap) : Later Out m m' → Later Out m (m'.pump h).2.2
  | activate {m' : Manager} (trigger : Trigger) (event : Value) (locals : Table Value) (h : Heap) :
      Later Out m m' → Later Out m (Manager.activate trigger event locals h m').2.2
  | fire {m' : Manager} (name event : Value) (locals : Table Value) (h : Heap) :
      Later Out m m' → Later Out m (Manager.fire name event locals h m').2.2
  | compile {m' : Manager} (name : Option String) (source : String) :
      Later Out m m' → Later Out m (m'.compile name source).2
  | add {m' : Manager} (name source : String) : Later Out m m' → Later Out m (m'.add name source).2
  | remove {m' : Manager} (name : String) : Later Out m m' → Later Out m (m'.remove name).2
  | clone {m' : Manager} (trigger : Trigger) : Later Out m m' → Later Out m (m'.clone trigger).2
  | shutdown {m' : Manager} : Later Out m m' → Later Out m m'.shutdown

/-- How a manager that is shut down may differ from what it was before: the host has changed by
itself only, nothing was written into the store or handed over, and no run waits that did not wait
before. -/
structure Rests (Out : Host → Host → Prop) (m m' : Manager) : Prop where
  closed : m'.closed = true
  host : Relation.ReflTransGen Out m.host m'.host
  cooldowns : m'.cooldowns = m.cooldowns
  spawned : m'.spawned = m.spawned
  pending : m'.pending.Sublist m.pending

namespace Rests

variable {Out : Host → Host → Prop}

theorem reported (hm : Rests Out m m') (triggers : Table Trigger) (journal : List Entry)
    (messages : List (Value × String)) :
    Rests Out m { m' with triggers, journal, messages } :=
  ⟨hm.closed, hm.host, hm.cooldowns, hm.spawned, hm.pending⟩

theorem perform (hm : Rests Out m m') {pending : List Activation}
    (hpending : pending.Sublist m'.pending) (a : Activation) (h : Heap) :
    Rests Out m (Manager.perform a h { m' with pending }).2.2 := by
  have hm' : Rests Out m { m' with pending } :=
    ⟨hm.closed, hm.host, hm.cooldowns, hm.spawned, hpending.trans hm.pending⟩
  obtain ⟨result, journal, messages, hperform⟩ :=
    Activation.perform_of_closed (a := a) hm'.closed (Interpreter.roomBelow ownFrames) h
  rw [Manager.perform, hperform]
  exact hm'.reported m'.triggers journal messages

theorem activate (hm : Rests Out m m') (trigger : Trigger) (event : Value) (locals : Table Value)
    (h : Heap) : Rests Out m (Manager.activate trigger event locals h m').2.2 := by
  rw [Manager.activate, activateWith_of_closed hm.closed]
  exact hm.reported m'.triggers _ m'.messages

end Rests

theorem Later.rests {Out : Host → Host → Prop} (h : Later Out m m') (hclosed : m.closed = true) :
    Rests Out m m' := by
  induction h with
  | refl => exact ⟨hclosed, .refl, rfl, rfl, .refl _⟩
  | outside hout _ ih => exact ⟨ih.closed, ih.host.tail hout, ih.cooldowns, ih.spawned, ih.pending⟩
  | @perform m' a front back h hpending _ ih =>
      refine ih.perform ?_ a h
      rw [hpending]
      exact List.Sublist.append_left (List.sublist_cons_self a back) front
  | @pump m' h _ ih =>
      unfold Manager.pump
      split
      · exact ih
      · rename_i a rest hpending
        have hrests : Rests Out m (Manager.perform a h { m' with pending := rest }).2.2 :=
          ih.perform (hpending ▸ List.sublist_cons_self a rest) a h
        split
        · rename_i hperform
          rw [hperform] at hrests
          exact hrests
        · rename_i hperform
          rw [hperform] at hrests
          exact hrests
  | activate trigger event locals h _ ih => exact ih.activate trigger event locals h
  | @fire m' name event locals h _ ih =>
      unfold Manager.fire fireWith
      split
      · exact ih
      · exact ih.activate _ event locals h
  | @compile m' name source _ ih =>
      obtain ⟨journal, hframe⟩ := m'.compile_frame name source
      rw [hframe]
      exact ih.reported m'.triggers journal m'.messages
  | @add m' name source _ ih =>
      obtain ⟨triggers, journal, hframe⟩ := m'.add_frame name source
      rw [hframe]
      exact ih.reported triggers journal m'.messages
  | @remove m' name _ ih => exact ih.reported _ m'.journal m'.messages
  | @clone m' trigger _ ih =>
      obtain ⟨journal, hframe⟩ := m'.clone_frame trigger
      rw [hframe]
      exact ih.reported m'.triggers journal m'.messages
  | @shutdown m' _ ih => exact ⟨rfl, ih.host, ih.cooldowns, ih.spawned, ih.pending⟩

end Manager

/-- **Shutting a manager down ends its runs.**  A manager that is shut down stays so, whatever
the host does in its runs.  In every run, however deep it is nested, the nodes are visited
first while the manager is open, and after that at most one more is.  A run that is started later,
whichever of those that wait it is, makes no call and changes neither the host nor the store;
whoever asks for an activation gets none; and so it goes on, whatever is done with the manager. -/
theorem shutdown_ends_runs :
    -- It stays shut down.
    (∀ m : Manager, m.shutdown.closed = true) ∧
    (∀ (runs : Nat) (context : Value) (m m' : Manager), m.closed = true →
      (Manager.seat.binding (Manager.serviceF runs)).Changes context m m' → m'.closed = true) ∧
    -- Runs that are under way.
    (∀ (a : Activation) (runs room : Nat) (h : Heap) (m : Manager),
      let binding := Manager.seat.binding (Manager.serviceF runs)
      let r := a.run binding room h m
      let noted := Interpreter.run (a.setting binding m).noted room a.trigger.program
        ⟨h, m, .start a.locals, {}, []⟩
      r = (noted.1, noted.2.mapWatch Prod.fst) ∧
      ∃ before after, noted.2.watch.2 = before ++ after ∧
        (∀ seen ∈ before, seen.world.closed = false) ∧ (∀ seen ∈ after, seen.world.closed = true) ∧
        after.length ≤ 1 ∧ r.2.progress.steps ≤ before.length + 1) ∧
    -- Runs that are started later, and activations.
    (∀ m : Manager, m.closed = true →
      (∀ (a : Activation) (room : Nat) (h : Heap), ∃ result journal messages,
        ∀ binding, a.perform binding room h m = (result, h, { m with journal, messages })) ∧
      ∀ (perform : Manager.Performer) (trigger : Trigger) (event : Value) (locals : Table Value)
        (h : Heap), ∃ journal,
        Manager.activateWith perform trigger event locals h m = (.ok (), h, { m with journal }) ∧
        ∀ name, m.named h name = .ok trigger →
          Manager.fireWith perform name event locals h m = (.ok (), h, { m with journal })) ∧
    -- All that follows, in any order.
    ∀ (Out : Host → Host → Prop) (m m' : Manager), m.shutdown.Later Out m' →
      Manager.Rests Out m.shutdown m' := by
  refine ⟨fun _ => rfl, fun runs context m m' hclosed hchange => ?_, fun a runs room h m => ?_,
    fun m hclosed => ?_, fun Out m m' hlater => hlater.rests rfl⟩
  · exact Seat.Keeps.changes (Manager.lasting_closed.keeps runs) hchange hclosed
  · intro binding r noted
    obtain ⟨hsame, -, -⟩ := Interpreter.run_noted (a.setting binding m) room (P := fun _ => True)
      (fun _ _ => trivial) h m a.locals {}
    refine ⟨hsame, ?_⟩
    have hhalted : noted.2.Halted fun m => m.closed = true :=
      Exec.Halts.run ⟨binding, m.config.limits, a.event⟩ a.stops_of_closed room a.trigger.program h m
        a.locals {}
    obtain ⟨before, after, hnotes, hbefore, hafter, hlength, hsteps⟩ := hhalted
    refine ⟨before, after, hnotes, fun seen hseen => ?_, hafter, hlength, ?_⟩
    · exact Bool.eq_false_iff.2 (hbefore seen hseen)
    · have hprogress : r.2.progress = noted.2.progress := congrArg (fun s => s.2.progress) hsame
      rw [hprogress]
      exact hsteps
  · refine ⟨fun a room h => Activation.perform_of_closed hclosed room h, ?_⟩
    intro perform trigger event locals h
    refine ⟨_, Manager.activateWith_of_closed hclosed perform trigger event locals h, ?_⟩
    exact fun name hname => Manager.fireWith_of_closed hclosed perform hname event locals

/-- A script that calls twice what shuts the manager down, and gets to do so once. -/
theorem shutdown_ends_runs_midway :
    let stop : HostRoutine := ⟨"executor", "stop", fun _ => .ask .shutdown fun _ => .done .null⟩
    let executors : Registry := ⟨.role .executor, ⟨[("stop", .routine 0 .direct)]⟩⟩
    let m : Manager := { host := { routines := #[stop], executors }, config := .default }
    let call : Node := .expression (.reference .executor "stop" [] (.number 1)) (.number 1)
    let a : Activation :=
      ⟨⟨none, "", [call, call]⟩, .null, .null, .empty, .float 0, fun _ elapsed => elapsed⟩
    let r := a.run Manager.binding 100 {} m
    m.closed = false ∧ r.2.world.closed = true ∧ r.2.progress.steps = 3 ∧
      r.2.world.host.calls.length = 1 ∧
      ∃ before : List (Sighting Manager), (∀ seen ∈ before, seen.world.closed = false) ∧
        r.2.progress.steps ≤ before.length + 1 := by
  intro stop executors m call a r
  obtain ⟨-, -, hruns, -⟩ := shutdown_ends_runs
  obtain ⟨-, before, after, -, hbefore, -, -, hsteps⟩ := hruns a Manager.maxRuns 100 {} m
  exact ⟨rfl, rfl, rfl, rfl, before, hbefore, hsteps⟩

end TriggerEngine
