/-
**Activations.**

An activation is let through unless the manager is shut down or the actor behind the event has to
wait; then it is handed over to be run.  A run is watched: before each node the watcher stops it if
the manager has been shut down or the time is up, and otherwise writes down a cooldown that was set
since.  When a run has ended, a last cooldown is written down, and a failure is reported and told to
the actor.  What goes wrong then, and what nobody catches, gets to whoever asked for the activation.
An entry of the journal that cannot be written is left out.

A host call may fire a further trigger, so a run may lead into another one.  Each takes its share
of the room that the machine has, and with the room the nesting of runs is bounded too.

Main definitions:

* `Activation.Watch`, `Activation.watcher` — what a watched run remembers, and its watcher;
* `Activation.run`, `Activation.perform` — a run, and what is made of its outcome;
* `Manager.gate`, `Manager.activate`, `Manager.fire` — asking for a run;
* `Manager.service`, `Manager.binding` — the manager as the world of its runs;
* `Manager.pump` — starting a run that waits.
-/

import TriggerEngine.Manager.Basic
import TriggerEngine.Run.Eval

set_option autoImplicit false

namespace TriggerEngine

/-! ### Watching a run -/

namespace Activation

/-- What the watcher of a run remembers. -/
structure Watch where
  /-- The cooldown it has written down last. -/
  written : Option Number := none
  /-- Whether it has found the time to be up. -/
  late : Bool := false

/-- Whether a cooldown has been written down already. -/
def Watch.knows (w : Watch) (stop : Number) : Bool :=
  match w.written with
  | some n => stop.eq n
  | none => false

/-- Reports that the cooldown of an actor was written down. -/
def reportCooldown (a : Activation) (stop : Value) (h : Heap) (m : Manager) : Manager :=
  match m.written? h a.actor, m.written? h stop with
  | some name, some time => m.tell .debug ("Cooldown for " ++ name ++ " until " ++ time)
  | _, _ => m

/-- Writes down the cooldown of a run, if it is a new one. -/
def recordCooldown (a : Activation) (p : Progress) (h : Heap) (m : Manager) (w : Watch) :
    Except Fault Unit × Manager × Watch :=
  match p.cooldownEnd with
  | none => (.ok (), m, w)
  | some stop =>
    if w.knows stop then (.ok (), m, w)
    else
      let w := { w with written := some stop }
      if a.actor.isNull then
        (.ok (), m.tell .debug ("Trigger " ++ a.trigger.label ++ " set a cooldown without an actor"),
          w)
      else
        match m.cooldowns.put? a.actor p.cooldownValue with
        | .error fault => (.error fault, m, w)
        | .ok cooldowns => (.ok (), a.reportCooldown p.cooldownValue h { m with cooldowns }, w)

/-- Whether a run has taken more time than it may, at a step. -/
def overdue (a : Activation) (step : Nat) (m : Manager) (limit : Number) : Bool :=
  match (a.reading step m.host.elapsed).sub a.started with
  | .ok time => limit.lt time
  | .error _ => false

/-- A time limit as it is written in reports. -/
def limitText (limit : Number) : String :=
  match limit.toFloat with
  | .ok x => Number.briefText x
  | .error _ => ""

/-- Reports, once in a run, that its time is up. -/
def reportLate (a : Activation) (limit : Number) (line : Line) (m : Manager) (w : Watch) :
    Manager × Watch :=
  if w.late then (m, w)
  else
    (m.tell .warning ("Trigger " ++ a.trigger.label ++ " exceeded its " ++ limitText limit ++
      "s timeout on line " ++ line.text ++ "; aborting"), { w with late := true })

/-- The time limit that a run is beyond at a step, if it is. -/
def passed? (a : Activation) (step : Nat) (m : Manager) : Option Number :=
  match m.config.timeLimit? with
  | some limit => if a.overdue step m limit then some limit else none
  | none => none

/-- Decides before each node whether a run stops. -/
def watcher (a : Activation) : Watcher Manager Watch := fun _ node p h m w =>
  if m.closed then (.ok true, m, w)
  else
    match a.passed? p.steps m with
    | some limit =>
      match a.reportLate limit node.line m w with
      | (m, w) => (.ok true, m, w)
    | none =>
      match a.recordCooldown p h m w with
      | (.ok (), m, w) => (.ok false, m, w)
      | (.error fault, m, w) => (.error fault, m, w)

/-! ### Runs -/

/-- What the run of an activation is set up with. -/
def setting (a : Activation) (binding : Binding Manager) (m : Manager) : Setting Manager Watch :=
  ⟨binding, m.config.limits, some a.watcher, a.event⟩

/-- Runs an activation. -/
def run (a : Activation) (binding : Binding Manager) (room : Nat) (h : Heap) (m : Manager) :
    Except Fault Outcome × State Manager Watch :=
  Interpreter.run (a.setting binding m) room a.trigger.program ⟨h, m, .start a.locals, {}⟩

/-- How the end of a run that did not fail is worded. -/
def endText (a : Activation) (o : Outcome) : String :=
  "Trigger " ++ a.trigger.label ++
    (if o.phase == .aborted then " aborted after " else " completed in ") ++
    toString o.steps ++ " steps"

/-- What an actor is told first about a run that failed. -/
def errorNotice : String := "Could not execute this trigger."

/-- What an actor is told about a run that failed, if the failure can be worded. -/
def failureNotices (text : String) : List String :=
  [errorNotice, text, "If you are administrator, see console for details."]

/-- Tells the actor about a failure.  A failure without wording is noticed after the first
notice. -/
def tellFailure (a : Activation) (fault : Fault) (h : Heap) (m : Manager) :
    Except Fault Unit × Manager :=
  match fault.wording with
  | .ok text => (.ok (), (failureNotices text).foldl (·.notify h a.actor ·) m)
  | .error unworded => (.error unworded, m.notify h a.actor errorNotice)

/-- Reports a failure and tells the actor, if there is one. -/
def reportFailure (a : Activation) (fault : Fault) (h : Heap) (m : Manager) :
    Except Fault Unit × Manager :=
  let m := match fault.wording with
    | .ok text => m.report
      ⟨.error, .trigger, "Trigger " ++ a.trigger.label ++ " failed: " ++ text, true⟩
    | .error _ => m
  if a.actor.isNull then (.ok (), m) else a.tellFailure fault h m

/-- The report on the end of a run. -/
def reportEnd (a : Activation) (result : Except Fault Outcome) (h : Heap) (m : Manager) :
    Except Fault Unit × Manager :=
  match result with
  | .ok o => (.ok (), m.tell .debug (a.endText o))
  | .error fault => a.reportFailure fault h m

/-- What is made of the outcome of a run that nothing ended but the run itself. -/
def wrapUp (a : Activation) (result : Except Fault Outcome) (s : State Manager Watch) :
    Except Fault Unit × Heap × Manager :=
  match s with
  | ⟨h, m, p, w⟩ =>
    let m := match result with
      | .ok o => m.report (.ran o.phase.text o.steps)
      | .error _ => m
    match a.recordCooldown p h m w with
    | (.error fault, m, _) => (.error fault, h, m)
    | (.ok (), m, _) =>
      match a.reportEnd result h m with
      | (result, m) => (result, h, m)

/-- What is made of the outcome of a run: nothing, if nobody catches what ended it. -/
def finish (a : Activation) (result : Except Fault Outcome) (s : State Manager Watch) :
    Except Fault Unit × Heap × Manager :=
  match result with
  | .error fault => if fault.isCaught then a.wrapUp result s else (.error fault, s.heap, s.world)
  | .ok _ => a.wrapUp result s

/-- Runs an activation to its end. -/
def perform (a : Activation) (binding : Binding Manager) (room : Nat) (h : Heap) (m : Manager) :
    Except Fault Unit × Heap × Manager :=
  match a.run binding room h m with
  | (result, s) => a.finish result s

end Activation

/-! ### Asking for a run -/

namespace Manager

/-- A computation on a manager that may fail. -/
abbrev Effect := Heap → Manager → Except Fault Unit × Heap × Manager

/-- A way to run activations. -/
abbrev Performer := Activation → Effect

/-- The activation of a trigger for an event. -/
def activation (m : Manager) (trigger : Trigger) (event actor : Value) (locals : Table Value) :
    Activation :=
  let reading := m.steady m.spawned.length
  ⟨trigger, event, actor, locals.put "event" event, reading 0 m.host.elapsed, reading⟩

/-- Decides whether an activation is let through; if not, says why. -/
def gate (m : Manager) (trigger : Trigger) (event : Value) (locals : Table Value) (h : Heap) :
    Except Fault (Option Activation) × Manager :=
  if m.closed then
    (.ok none,
      m.tell .warning ("Trigger " ++ trigger.label ++ " not activated: manager is shut down"))
  else
    match m.actor h event with
    | .error fault => (.error fault, m)
    | .ok actor =>
      if actor.isNull then (.ok (some (m.activation trigger event actor locals)), m)
      else
        match m.cooldowns.remaining m.host.clock actor with
        | .error fault => (.error fault, m)
        | .ok left =>
          if Cooldowns.isLive left then
            match Cooldowns.noticeFor (.ofNumber left .shared) with
            | .error fault => (.error fault, m)
            | .ok text => (.ok none, m.notify h actor text)
          else (.ok (some (m.activation trigger event actor locals)), m)

/-- Hands a run over to be started. -/
def spawn (perform : Performer) (a : Activation) : Effect := fun h m =>
  let m := { m with spawned := a.trigger.taskName :: m.spawned }
  match m.spawner with
  | .direct => perform a h m
  | .queued => (.ok (), h, { m with pending := m.pending ++ [a] })

/-- Activates a trigger for an event, with a way to run it. -/
def activateWith (perform : Performer) (trigger : Trigger) (event : Value)
    (locals : Table Value) : Effect := fun h m =>
  match m.gate trigger event locals h with
  | (.error fault, m) => (.error fault, h, m)
  | (.ok none, m) => (.ok (), h, m)
  | (.ok (some a), m) => spawn perform a h m

/-- The trigger under a name.  Only what can be a key names anything. -/
def named (m : Manager) (h : Heap) (name : Value) : Except Fault Trigger :=
  if !name.isHashable then .error (.unhashable name)
  else
    let found :=
      match name with
      | .str s _ => m.triggers.get? s
      | _ => none
    match found with
    | some trigger => .ok trigger
    | none =>
      match h.inspect m.host.label textLevels [] [] name with
      | .ok text => .error (.plain .key text)
      | .error _ => .error (.wordless Plain.key.name false)

/-- Activates a named trigger for an event, with a way to run it. -/
def fireWith (perform : Performer) (name event : Value) (locals : Table Value) : Effect :=
  fun h m =>
    match m.named h name with
    | .error fault => (.error fault, h, m)
    | .ok trigger => activateWith perform trigger event locals h m

/-! ### The manager as the world of its runs -/

/-- The host's seat in the manager. -/
def seat : Seat Manager := ⟨Manager.host, fun m host => { m with host }⟩

/-- The frames taken between a host call and the run it leads into. -/
def firingFrames : Nat := 12

/-- The frames taken between the start and a run of the manager. -/
def ownFrames : Nat := 14

/-- How many runs can be nested at most. -/
def maxRuns : Nat := 1000 / firingFrames

/-- Answers what routines ask for, with a way to fire triggers. -/
def answer (fire : Value → Value → Effect) : Seat.Service Manager := fun id request h m =>
  match request with
  | .manager _ => (.ok .null, h, m)
  | .shutdown => (.ok .null, h, m.shutdown)
  | .peek actor => (m.cooldowns.get? actor, h, m)
  | .fire name event =>
    match fire name event h m with
    | (.ok (), h, m) => (.ok .null, h, m)
    | (.error fault, h, m) => (.error fault, h, m)
  | request =>
    match Host.serve id request h m.host with
    | (reply, h, host) => (reply, h, { m with host })

/-- Answers what routines ask for in a run below which this many more can be nested. -/
def serviceF : Nat → Nat → Seat.Service Manager
  | 0, _ => answer fun _ _ h m =>
    (.error (.plain .recursion "maximum recursion depth exceeded"), h, m)
  | runs + 1, room => answer fun name event =>
    fireWith (fun a => a.perform (seat.binding (serviceF runs)) (room - firingFrames))
      name event .empty

/-- Answers what routines ask for. -/
def service : Nat → Seat.Service Manager := serviceF maxRuns

/-- The manager as the world of its runs. -/
def binding : Binding Manager := seat.binding service

/-- Runs an activation of a manager. -/
def perform : Performer := fun a => a.perform binding (Interpreter.roomBelow ownFrames)

/-! ### From outside -/

/-- Activates a trigger for an event. -/
def activate (trigger : Trigger) (event : Value) (locals : Table Value) : Effect :=
  activateWith perform trigger event locals

/-- Activates a named trigger for an event. -/
def fire (name event : Value) (locals : Table Value) : Effect :=
  fireWith perform name event locals

/-- Runs the activation that has waited longest; the answer is whether there was one. -/
def pump (h : Heap) (m : Manager) : Except Fault Bool × Heap × Manager :=
  match m.pending with
  | [] => (.ok false, h, m)
  | a :: rest =>
    match perform a h { m with pending := rest } with
    | (.ok (), h, m) => (.ok true, h, m)
    | (.error fault, h, m) => (.error fault, h, m)

end Manager

end TriggerEngine
