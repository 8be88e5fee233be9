/-
**The command line.**

Scripts can be run and checked outside of any host.  A run has a console for a host: one executor
prints its arguments, globals are kept as long as the run lasts, and the actor is the console
itself.  A check compiles scripts and prints a line for each that cannot be read or compiled.

What a command does is a report: what it prints, what it writes to the journal, and how it ends,
which is an exit code or a fault that nothing takes care of.

Main definitions:

* `FileTrouble`, `Files` — the files, and why one cannot be read;
* `Console`, `Console.binding` — the host of a run;
* `CommandLine.check`, `CommandLine.run` — the two commands;
* `CommandLine.dispatch` — the command that arguments stand for.
-/

import TriggerEngine.Journal
import TriggerEngine.Run.Eval
import TriggerEngine.Syntax.Grammar
import TriggerEngine.Text.Utf8

set_option autoImplicit false

namespace TriggerEngine

/-! ### Files -/

/-- Why a file cannot be read. -/
inductive FileTrouble where
  /-- The operating system says so, by a number and in words. -/
  | system (number : Nat) (reason : String)
  /-- Its path holds a character that no path can hold. -/
  | unnameable
  deriving DecidableEq, Repr

namespace FileTrouble

/-- It is not there. -/
def missing : FileTrouble := .system 2 "No such file or directory"

/-- It is a directory. -/
def directory : FileTrouble := .system 21 "Is a directory"

/-- The way to it leads through something that is no directory. -/
def blocked : FileTrouble := .system 20 "Not a directory"

/-- It may not be read. -/
def denied : FileTrouble := .system 13 "Permission denied"

/-- A part of its path has too many octets. -/
def tooLong : FileTrouble := .system 36 "File name too long"

/-- Whether the operating system says so.  It does not see a path that is none. -/
def isSystem (t : FileTrouble) : Bool := t != .unnameable

/-- The fault of a file that cannot be read. -/
def fault (t : FileTrouble) (path : String) : Fault :=
  match t with
  | .system number reason =>
    .plain (.ofSystem number)
      ("[Errno " ++ toString number ++ "] " ++ reason ++ ": " ++ Text.quote path)
  | .unnameable => .plain .value "embedded null byte"

/-- What is said about a file that cannot be read: the reason, or all of it if there are no words
for the reason. -/
def words (t : FileTrouble) (path : String) : String :=
  match t with
  | .system _ reason => if reason.isEmpty then (t.fault path).message else reason
  | t => (t.fault path).message

end FileTrouble

/-- The octets of files by path. -/
abbrev Files := String → Except FileTrouble (List Nat)

/-- The octets of the file at a path. -/
def Files.read (files : Files) (path : String) : Except FileTrouble (List Nat) :=
  if path.contains '\x00' then .error .unnameable else files path

/-- The text of a file: its octets as UTF-8, and every line ended by a line feed. -/
def decodeFile (octets : List Nat) : Except Fault String :=
  match Text.Utf8.decode octets with
  | .ok cs => .ok (String.ofList (Text.Utf8.plainLines cs))
  | .error flaw => .error (.plain .decoding flaw.message)

/-! ### The console -/

/-- The host of a run from the command line. -/
structure Console where
  /-- The time. -/
  clock : Number
  /-- What has been printed, the last part first. -/
  printed : List String := []
  /-- The journal, the last entry first. -/
  journal : List Entry := []
  /-- The globals. -/
  globals : Table Value := .empty
  /-- The size of a text or list that there is no memory for. -/
  memory : Nat := 2 ^ (32 : Nat)

namespace Console

/-- The name of the actor. -/
def actor : String := "console"

/-- The name of the executor that prints. -/
def executor : String := "MESSAGE"

/-- Prints a line. -/
def print (c : Console) (line : String) : Console :=
  { c with printed := (line ++ "\n") :: c.printed }

/-- Everything that has been printed. -/
def output (c : Console) : String :=
  String.join c.printed.reverse

/-- There are no objects to label. -/
def noLabel : Nat → String := fun _ => ""

/-- The line for some arguments. -/
def lineOf (h : Heap) (room : Nat) (args : List Value) : Except Fault String :=
  match Heap.textRow (h.text noLabel room) args with
  | .ok parts => .ok (" ".intercalate parts)
  | .error reason => .error (Exec.unwritable reason)

/-- Prints arguments. -/
def message (room : Nat) (args : List Value) (h : Heap) (c : Console) : Reply Console :=
  match lineOf h room args with
  | .ok line => (.ok .null, h, c.print line)
  | .error fault => (.error fault, h, c)

/-- The console as the world of a run. -/
def binding : Binding Console where
  label _ := noLabel
  isRegistered role name _ := role == .executor && name == executor
  invoke room _ _ args _ := message room args
  call _ _ _ h c := (.error (Seat.notCallable .null), h, c)
  readAttribute _ name _ := .error (Host.noAttribute name)
  item? _ _ _ h c := (.ok none, h, c)
  consult _ _ h c := (.ok none, h, c)
  further _ _ _ := none
  memory := Console.memory
  readGlobal name c := (c.globals.get? name).getD .null
  writeGlobal name v c := { c with globals := c.globals.put name v }
  clock := Console.clock

end Console

/-! ### Reports -/

/-- What a command did. -/
structure Report where
  /-- The exit code, or the fault that nothing took care of. -/
  ending : Except Fault Nat
  /-- What it printed. -/
  output : String
  /-- The lines of the journal. -/
  errors : String

namespace CommandLine

/-- Named settings. -/
abbrev Settings := List (String × String)

/-- Whether everything is to be shown. -/
def isVerbose (settings : Settings) : Bool :=
  match settings.lookup "TRIGSCRIPT_DEBUG" with
  | some s => !s.isEmpty
  | none => false

/-- Whether an entry of the journal is shown. -/
def isShown (settings : Settings) (e : Entry) : Bool :=
  isVerbose settings || (e.level != .debug && e.level != .info)

/-! ### Usage -/

/-- How the commands are used. -/
def usage : String :=
  "\n".intercalate [
    "",
    "TriggerScript",
    "",
    "Usage:",
    "    trig <script.trg>",
    "    trig --check <script.trg> [<script.trg> ...]",
    "",
    "Arguments:",
    "    <script.trg>",
    "        Path to a trigger script. It is run with a console harness:",
    "        #MESSAGE prints its arguments and the actor is 'console'.",
    "",
    "Example:",
    "    trig greet.trg",
    "",
    "Options:",
    "    --check",
    "        Compile the given scripts without running them and report errors.",
    "    -h, --help",
    "        Show this help message and exit.",
    "",
    "Environment:",
    "    TRIGSCRIPT_DEBUG       print tokens and AST before running",
    "    TRIGSCRIPT_MAX_STEPS   maximum nodes visited per run",
    "    TRIGSCRIPT_MAX_DEPTH   maximum evaluation nesting",
    ""]

/-! ### Checking -/

/-- The line for a script that does not compile. -/
def faultLine (path : String) (cause : String) (place : Place) (fault : Fault) : String :=
  path ++ ":" ++ toString place.line ++ ":" ++ toString place.column ++ ": " ++
    fault.className ++ ": " ++ cause ++ "\n"

/-- Checks a script: the line for it, if there has to be one. -/
def checkOne (files : Files) (path : String) : Except Fault (Option String) :=
  match files.read path with
  | .error trouble =>
    if trouble.isSystem then .ok (some (path ++ ": " ++ trouble.words path ++ "\n"))
    else .error (trouble.fault path)
  | .ok octets =>
    match decodeFile octets with
    | .error fault => .error fault
    | .ok source =>
      match compile path source with
      | .ok _ => .ok none
      | .error fault =>
        match fault with
        | .lex cause place => .ok (some (faultLine path cause.message place fault))
        | .parse cause place => .ok (some (faultLine path cause.message place fault))
        | fault => .error fault

/-- Checks scripts one after the other: the lines printed, and the fault that ended it all, if one
did. -/
def checkAll (files : Files) : List String → List String × Option Fault
  | [] => ([], none)
  | path :: rest =>
    match checkOne files path with
    | .error fault => ([], some fault)
    | .ok line =>
      match checkAll files rest with
      | (lines, stop) => (line.toList ++ lines, stop)

/-- Checks scripts. -/
def check (files : Files) (paths : List String) : Report :=
  match checkAll files paths with
  | (lines, some fault) => ⟨.error fault, String.join lines, ""⟩
  | (lines, none) => ⟨.ok (if lines.isEmpty then 0 else 1), String.join lines, ""⟩

/-! ### Running -/

/-- Something done at the console that may fail. -/
abbrev Attempt := ExceptT Fault (StateM Console)

/-- A result that may be a fault. -/
def ofExcept {α : Type} (result : Except Fault α) : Attempt α :=
  ExceptT.mk fun c => (result, c)

/-- Prints a line. -/
def print (line : String) : Attempt Unit :=
  modify fun c => c.print line

/-- The frames that are taken when a run is started from the command line. -/
def ownFrames : Nat := 8

/-- The fault of a shape that cannot be written. -/
def obstacleFault (o : Shape.Obstacle) : Fault :=
  .plain .recursion ("maximum recursion depth exceeded" ++
    match o with
    | .writing => " while getting the repr of an object"
    | .entering => ""
    | .calling => " while calling a Python object")

/-- Shows tokens and the program made of them. -/
def dump (tokens : List Token) (program : Program) : Attempt Unit := do
  print "\nTokens:\n"
  print ("[" ++ ", ".intercalate (tokens.map Token.inspect) ++ "]")
  print "\nAST:\n"
  match program.toShape.obstacle? (Interpreter.roomBelow ownFrames) with
  | some o => throw (obstacleFault o)
  | none => print program.toShape.inspect
  print " "

/-- The event of a run. -/
def event (h : Heap) : Value × Heap :=
  h.newMap #[(.text "actor", .text Console.actor)]

/-- Runs a program at the console. -/
def interpret (config : Config) (program : Program) : Attempt Outcome :=
  ExceptT.mk fun c =>
    match event {} with
    | (event, h) =>
      let env : Setting Console Unit := ⟨Console.binding, config.limits, none, event⟩
      let start : State Console Unit :=
        ⟨h, c, .start (.ofList [("event", event)]), ()⟩
      match Interpreter.run env (Interpreter.roomBelow ownFrames) program start with
      | (result, s) => (result, s.world)

/-- Compiles and runs a script. -/
def attempt (settings : Settings) (path source : String) : Attempt Outcome := do
  let (tokens, program) ← ofExcept (compileWhole path source)
  if isVerbose settings then dump tokens program
  let config ← ofExcept (Config.ofSettings? settings)
  let outcome ← interpret config program
  modify fun c => { c with journal := .ran outcome.phase.text outcome.steps :: c.journal }
  return outcome

/-- Whether a run from the command line takes care of a fault. -/
def isHandled (fault : Fault) : Bool :=
  match fault with
  | .plain .value _ => true
  | fault => fault.isEngine

/-- A moment without a fraction. -/
def moment : Number → String
  | .int n => Number.intText n
  | .float x => Number.wholeText x

/-- How a run ends, and what is printed about that. -/
def conclude (result : Except Fault Outcome) (c : Console) : Except Fault Nat × Console :=
  match result with
  | .ok outcome =>
    match outcome.cooldownEnd with
    | none => (.ok 0, c)
    | some stop =>
      (.ok 0, c.print ("Cooldown set for " ++ Console.actor ++ " until " ++ moment stop))
  | .error fault =>
    if isHandled fault then (.ok 1, c.print (fault.className ++ ": " ++ fault.message))
    else (.error fault, c)

/-- What became of a console. -/
def report (settings : Settings) (ending : Except Fault Nat) (c : Console) : Report :=
  ⟨ending, c.output,
    String.join ((c.journal.reverse.filter (isShown settings)).map Entry.line)⟩

/-- Runs a script. -/
def run (files : Files) (settings : Settings) (clock : Number) (path : String) : Report :=
  match files.read path with
  | .error trouble => ⟨.error (trouble.fault path), "", ""⟩
  | .ok octets =>
    match decodeFile octets with
    | .error fault => ⟨.error fault, "", ""⟩
    | .ok source =>
      match (ExceptT.run (attempt settings path source)) { clock } with
      | (result, c) =>
        match conclude result c with
        | (ending, c) => report settings ending c

/-! ### Arguments -/

/-- Does what the arguments stand for. -/
def dispatch (files : Files) (settings : Settings) (clock : Number) (args : List String) : Report :=
  match args with
  | [] => ⟨.ok 1, usage, ""⟩
  | [arg] =>
    if arg == "-h" || arg == "--help" then ⟨.ok 0, usage, ""⟩
    else if arg.startsWith "-" then ⟨.ok 1, usage, ""⟩
    else run files settings clock arg
  | arg :: paths => if arg == "--check" then check files paths else ⟨.ok 1, usage, ""⟩

end CommandLine

end TriggerEngine
