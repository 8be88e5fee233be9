/-
**The journal.**

What an engine reports about its work: entries with a level, the channel they are written to, a
text, and whether the fault that led to the entry is written out with it.

Main definitions:

* `Level`, `Channel`, `Entry` — the types;
* `Entry.line` — an entry as a line of text.
-/

set_option autoImplicit false

namespace TriggerEngine

/-- How much an entry matters. -/
inductive Level where
  | debug | info | warning | error | critical
  deriving DecidableEq, Repr

/-- The name of a level. -/
def Level.name : Level → String
  | .debug => "DEBUG"
  | .info => "INFO"
  | .warning => "WARNING"
  | .error => "ERROR"
  | .critical => "CRITICAL"

/-- The parts of the engine that report. -/
inductive Channel where
  | compiler | interpreter | trigger | messages
  deriving DecidableEq, Repr

/-- The name of a channel. -/
def Channel.name : Channel → String
  | .compiler => "trigscript.compiler"
  | .interpreter => "trigscript.interpreter"
  | .trigger => "trigscript.trigger"
  | .messages => "trigscript.messages"

/-- An entry of the journal. -/
structure Entry where
  /-- How much it matters. -/
  level : Level
  /-- Who reports. -/
  channel : Channel
  /-- What is reported. -/
  text : String
  /-- Whether a fault is written out with it. -/
  hasFault : Bool := false
  deriving DecidableEq, Repr

namespace Entry

/-- An entry as a line of text. -/
def line (e : Entry) : String :=
  e.level.name ++ " " ++ e.channel.name ++ ": " ++ e.text ++ "\n"

/-- A script was compiled. -/
def compiled (file : String) (statements : Nat) : Entry :=
  ⟨.debug, .compiler, "Compiled " ++ file ++ " (" ++ toString statements ++
    " top-level statements)", false⟩

/-- A run came to an end. -/
def ran (phase : String) (steps : Nat) : Entry :=
  ⟨.debug, .interpreter, "Run " ++ phase ++ " after " ++ toString steps ++ " steps", false⟩

end Entry

end TriggerEngine
