/-
**Triggers and their manager.**

A trigger is a compiled script together with its source.  The manager compiles triggers, keeps a
table of named ones, and holds everything an activation needs: the host, the limits, the
cooldowns, a way to start runs and a way to reach actors.  Once it is shut down it stays so.

Main definitions:

* `Trigger` — a compiled script;
* `Activation` — a run that was asked for and let through;
* `Manager` — the manager;
* `Manager.compile`, `Manager.add`, `Manager.clone` — making triggers;
* `Manager.notify`, `Manager.report` — what others see of its work.
-/

import TriggerEngine.Config
import TriggerEngine.Cooldown
import TriggerEngine.Host.Basic
import TriggerEngine.Journal
import TriggerEngine.Syntax.Grammar
import TriggerEngine.Value.Written

set_option autoImplicit false

namespace TriggerEngine

/-! ### Triggers -/

/-- A compiled script. -/
structure Trigger where
  /-- Its name, if it has one. -/
  name : Option String
  /-- What it was compiled from. -/
  source : String
  /-- Its statements. -/
  program : Program

namespace Trigger

/-- What a script with this name is called; an empty name is none. -/
def labelOf (name : Option String) : String :=
  match name with
  | some s => if s.isEmpty then unnamed else s
  | none => unnamed

/-- What a trigger is called. -/
def label (t : Trigger) : String := labelOf t.name

/-- A trigger written for inspection. -/
def inspect (t : Trigger) : String :=
  "Trigger(" ++ Text.quote t.label ++ ", " ++ toString t.program.length ++ " statements)"

/-- Whether two triggers have the same statements. -/
def sameProgram (t u : Trigger) : Bool :=
  t.program.toShape.agrees u.program.toShape

/-- What the run of a trigger is called. -/
def taskName (t : Trigger) : String := "trigger:" ++ t.label

end Trigger

/-- A run that was asked for and let through. -/
structure Activation where
  /-- What is run. -/
  trigger : Trigger
  /-- What the run is about. -/
  event : Value
  /-- Who is behind the event, or nothing. -/
  actor : Value
  /-- The variables it starts with. -/
  locals : Table Value
  /-- When it was let through. -/
  started : Number
  /-- What the steady clock shows at a step of the run, when this much time has been let pass. -/
  reading : Nat → Number → Number

/-! ### The manager -/

/-- How runs are started. -/
inductive Spawner where
  /-- At once. -/
  | direct
  /-- Later, in the order in which they were asked for. -/
  | queued
  deriving DecidableEq, Repr

/-- How actors are told something. -/
inductive Messenger where
  /-- By a message. -/
  | direct
  /-- Through the journal. -/
  | journal
  deriving DecidableEq, Repr

/-- The manager of triggers. -/
structure Manager where
  /-- Everything outside of scripts. -/
  host : Host
  /-- What runs are held to. -/
  config : Config
  /-- When the cooldowns of actors end. -/
  cooldowns : Cooldowns := {}
  /-- The named triggers. -/
  triggers : Table Trigger := .empty
  /-- Whether the manager is shut down. -/
  closed : Bool := false
  /-- How runs are started. -/
  spawner : Spawner := .direct
  /-- How actors are told something. -/
  messenger : Messenger := .direct
  /-- Who is behind every event, if that is always the same. -/
  standIn : Option Value := none
  /-- Runs that wait to be started. -/
  pending : List Activation := []
  /-- The messages sent, the last one first. -/
  messages : List (Value × String) := []
  /-- The journal, the last entry first. -/
  journal : List Entry := []
  /-- The names of runs handed over to be started, the last one first. -/
  spawned : List String := []
  /-- What the steady clock shows at a step of the run with a number, when this much time has been
  let pass. -/
  steady : Nat → Nat → Number → Number := fun _ _ elapsed => elapsed

namespace Manager

/-! ### Reports and messages -/

/-- Writes an entry into the journal. -/
def report (m : Manager) (entry : Entry) : Manager :=
  { m with journal := entry :: m.journal }

/-- Reports on a trigger. -/
def tell (m : Manager) (level : Level) (text : String) : Manager :=
  m.report ⟨level, .trigger, text, false⟩

/-- How deep a value is followed when it is written. -/
def textLevels : Nat := 1000

/-- A value as it is written in reports, if it can be written. -/
def written? (m : Manager) (h : Heap) (v : Value) : Option String :=
  (h.display m.host.label textLevels v).toOption

/-- Tells an actor something.  If that goes through the journal and the actor cannot be written,
there is no entry. -/
def notify (m : Manager) (h : Heap) (actor : Value) (text : String) : Manager :=
  match m.messenger with
  | .direct => { m with messages := (actor, text) :: m.messages }
  | .journal =>
    match m.written? h actor with
    | some name => m.report ⟨.info, .messages, "[" ++ name ++ "] " ++ text, false⟩
    | none => m

/-! ### Actors -/

/-- Who is behind an event: what a mapping holds under the name `actor`, or what anything else has
as an attribute of that name; nothing if there is none. -/
def actorOf (host : Host) (h : Heap) (event : Value) : Except Fault Value :=
  match event with
  | .map ref => .ok ((h.mapGet? ref (.text "actor")).getD .null)
  | v => (host.findAttribute v "actor").map (·.getD .null)

/-- Who is behind an event for this manager. -/
def actor (m : Manager) (h : Heap) (event : Value) : Except Fault Value :=
  match m.standIn with
  | some v => .ok v
  | none => actorOf m.host h event

/-! ### Making triggers -/

/-- Compiles a trigger. -/
def compile (m : Manager) (name : Option String) (source : String) : Except Fault Trigger × Manager :=
  let label := Trigger.labelOf name
  match TriggerEngine.compile label source with
  | .ok program => (.ok ⟨name, source, program⟩, m.report (.compiled label program.length))
  | .error fault => (.error fault, m)

/-- Compiles a trigger and keeps it under its name. -/
def add (m : Manager) (name source : String) : Except Fault Trigger × Manager :=
  match m.compile (some name) source with
  | (.ok trigger, m) =>
    let verb := if m.triggers.has name then "Replaced" else "Added"
    let m := { m with triggers := m.triggers.put name trigger }
    (.ok trigger, m.tell .info (verb ++ " trigger " ++ name))
  | (.error fault, m) => (.error fault, m)

/-- Removes a name; the answer is the trigger that was there. -/
def remove (m : Manager) (name : String) : Option Trigger × Manager :=
  (m.triggers.get? name, { m with triggers := m.triggers.erase name })

/-- Compiles the source of a trigger again. -/
def clone (m : Manager) (trigger : Trigger) : Except Fault Trigger × Manager :=
  match m.compile trigger.name trigger.source with
  | (.ok copy, m) => (.ok copy, m)
  | (.error fault, m) =>
    (.error fault,
      if fault.isCompile then
        m.report ⟨.critical, .trigger, "Could not clone trigger " ++ trigger.label, true⟩
      else m)

/-! ### The end -/

/-- Shuts the manager down. -/
def shutdown (m : Manager) : Manager :=
  { m with closed := true }.tell .info "Trigger manager shut down"

end Manager

end TriggerEngine
