/-
**Faults.**

Everything that can go wrong is a fault, and a fault is its cause: where a text is no script, what
a script did that has no meaning, which limit it met, what the host raised.  The wording of a
cause is one function, so a message says neither more nor less than the cause it was made from.

Faults fall into families.  The engine's own faults pass through host calls as they are; all
others are wrapped into a fault that names the call.  The requests to leave a loop and to go on
with its next round travel as faults too, from the statement to the loop; a host may make such a
request that is one of the engine's faults as well.

Two things that travel like faults are no errors, and nobody catches them: that the whole program is
to end, and that something the host was asked for does not come to an end.

A host may make a fault about a number that is too long to be written.  Such a fault has no wording,
and asking for one is a fault of its own.

Main definitions:

* `LexCause`, `ParseCause`, `Place` — faults of texts;
* `Cause`, `Mismatch`, `LimitCause` — faults of runs;
* `Plain` — faults that are not the engine's own;
* `EngineClass` — the families of the engine's faults;
* `Fault` — all of them, with `Fault.className`, `Fault.message`, `Fault.wording`, `Fault.isEngine`,
  `Fault.isCaught` and `Fault.details`.
-/

import TriggerEngine.Name
import TriggerEngine.Text.Quoted

set_option autoImplicit false

namespace TriggerEngine

/-! ### Faults of texts -/

/-- Why a text cannot be cut into tokens. -/
inductive LexCause where
  /-- A comment is not closed. -/
  | openComment
  /-- A string is not closed on its line. -/
  | openString
  /-- A character starts no token. -/
  | unexpected (c : Char)
  deriving DecidableEq, Repr

/-- The wording of a lexical cause. -/
def LexCause.message : LexCause → String
  | .openComment => "Unterminated comment"
  | .openString => "Unterminated string literal"
  | .unexpected c => "Unexpected character " ++ Text.quote (String.singleton c)

/-- How many levels of brackets, blocks and signs may be open at once. -/
def maxNesting : Nat := 32

/-- Why tokens are no program. -/
inductive ParseCause where
  /-- Something else was expected here. -/
  | expected (wanted found : String)
  /-- Too many levels are open. -/
  | nesting
  /-- The left side of an assignment is an expression of this kind. -/
  | target (kind : String)
  /-- A word that belongs into a loop stands outside. -/
  | outsideLoop (word : String)
  deriving DecidableEq, Repr

/-- The wording of a syntactic cause. -/
def ParseCause.message : ParseCause → String
  | .expected wanted found => "Expected " ++ wanted ++ ", but got " ++ found
  | .nesting => "Nesting deeper than " ++ toString maxNesting ++ " levels"
  | .target _ => "Cannot assign to this expression"
  | .outsideLoop word => "'" ++ word ++ "' outside a loop"

/-- What a syntactic cause says was expected, if it says so. -/
def ParseCause.wanted? : ParseCause → Option String
  | .expected wanted _ => some wanted
  | .target _ => some "a variable or global on the left of '='"
  | _ => none

/-- What a syntactic cause says was found, if it says so. -/
def ParseCause.found? : ParseCause → Option String
  | .expected _ found => some found
  | .target kind => some kind
  | _ => none

/-- A place in a script, counted from one. -/
structure Place where
  /-- The line. -/
  line : Nat
  /-- The column. -/
  column : Nat
  /-- The name of the script, if it has one. -/
  file : Option String
  deriving DecidableEq, Repr

/-- A place at the end of a message. -/
def Place.suffix (place : Place) : String :=
  " on line " ++ toString place.line ++ ", column " ++ toString place.column ++
    (match place.file with
      | some file => " in " ++ file
      | none => "")

/-! ### Faults of runs -/

/-- The life of an interpreter. -/
inductive Phase where
  | idle | running | completed | aborted | failed
  deriving DecidableEq, Repr

/-- The name of a phase. -/
def Phase.text : Phase → String
  | .idle => "idle"
  | .running => "running"
  | .completed => "completed"
  | .aborted => "aborted"
  | .failed => "failed"

/-- A value of the wrong kind, or a tree that is no program.  Kinds of values and texts of
expressions are given as they are worded. -/
inductive Mismatch where
  /-- A condition returned no truth value. -/
  | condition (name kind : String)
  /-- A global was named by something else than a text. -/
  | globalName (kind : String)
  /-- A value was called that cannot be. -/
  | notCallable (expression kind : String)
  /-- A sign before something else than a number. -/
  | sign (minus : Bool) (kind expression : String)
  /-- An operator between values it has no meaning for. -/
  | operator (expression left right : String)
  /-- A member of nothing. -/
  | memberOfNull (name : String)
  /-- An index that is no whole number. -/
  | index (kind expression : String)
  /-- A value that has no items. -/
  | notIndexable (expression kind : String)
  /-- A value that cannot be looped over. -/
  | notIterable (kind : String)
  /-- A range with an end that is no whole number. -/
  | rangeBound (kind : String)
  /-- A cooldown that is no number of seconds. -/
  | cooldown (value : String)
  /-- A tree that is no expression. -/
  | invalidExpression (expression : String)
  /-- A tree that is no statement. -/
  | unknownStatement (kind : String)
  deriving DecidableEq, Repr

/-- The wording of a mismatch. -/
def Mismatch.message : Mismatch → String
  | .condition name kind => "Condition '" ++ name ++ "' returned " ++ kind ++ ", expected boolean"
  | .globalName kind => "Global variable names must be strings, got " ++ kind
  | .notCallable expression kind => expression ++ " is not callable (" ++ kind ++ ")"
  | .sign minus kind expression =>
    "Unary " ++ (if minus then "minus" else "plus") ++ " requires a number, got " ++ kind ++
      " in " ++ expression
  | .operator expression left right =>
    "Cannot apply '" ++ expression ++ "' to " ++ left ++ " and " ++ right
  | .memberOfNull name => "Cannot read '" ++ name ++ "' of null"
  | .index kind expression =>
    "Index must be a whole number, got " ++ kind ++ " in " ++ expression
  | .notIndexable expression kind => expression ++ " is not indexable (" ++ kind ++ ")"
  | .notIterable kind => "Cannot loop over " ++ kind
  | .rangeBound kind => "Range bounds must be whole numbers, got " ++ kind
  | .cooldown value => "Cooldown must be a non-negative number of seconds, got " ++ value
  | .invalidExpression expression => "Invalid expression node: " ++ expression
  | .unknownStatement kind => "Unknown statement type: " ++ kind

/-- Which limit a run met; a limit is given as it is worded. -/
inductive LimitCause where
  /-- More nodes visited than allowed. -/
  | steps (most : String)
  /-- An expression nested too deeply. -/
  | expression (most : String)
  /-- Blocks nested too deeply. -/
  | block (most : String)
  /-- The machine that walks the tree has no room left. -/
  | stack
  deriving DecidableEq, Repr

/-- The wording of a limit. -/
def LimitCause.message : LimitCause → String
  | .steps most => "Script exceeded " ++ most ++ " steps"
  | .expression most => "Expression too long or nested deeper than " ++ most ++ " levels"
  | .block most => "Script nested deeper than " ++ most ++ " levels"
  | .stack => "Script nested too deeply"

/-- What a script did wrong. -/
inductive Cause where
  /-- A variable that nobody set. -/
  | undefinedVariable (name : Name)
  /-- An executor that nobody registered. -/
  | undefinedExecutor (name : Name)
  /-- A condition that nobody registered. -/
  | undefinedCondition (name : Name)
  /-- A placeholder that nobody registered. -/
  | undefinedPlaceholder (name : Name)
  /-- An attribute or key that is not there. -/
  | undefinedMember (name : Name)
  /-- A value of the wrong kind. -/
  | mismatch (what : Mismatch)
  /-- A division or remainder by zero. -/
  | divisionByZero
  /-- An index outside a list or text. -/
  | indexOutOfRange (index : Int) (length : Nat)
  /-- A limit was met. -/
  | limit (which : LimitCause)
  /-- The host raised a fault of the given class and wording. -/
  | hostCall (name reasonClass reasonText : String)
  deriving DecidableEq, Repr

/-- The wording of a cause. -/
def Cause.message : Cause → String
  | .undefinedVariable name => "Undefined variable '" ++ name.display ++ "'"
  | .undefinedExecutor name => "Undefined executor '" ++ name.display ++ "'"
  | .undefinedCondition name => "Undefined condition '" ++ name.display ++ "'"
  | .undefinedPlaceholder name => "Undefined placeholder '" ++ name.display ++ "'"
  | .undefinedMember name => "Undefined member '" ++ name.display ++ "'"
  | .mismatch what => what.message
  | .divisionByZero => "Division by zero"
  | .indexOutOfRange index length =>
    "Index " ++ Number.intText index ++ " out of range for length " ++ toString length
  | .limit which => which.message
  | .hostCall name reasonClass reasonText =>
    "'" ++ name ++ "' failed: " ++ reasonClass ++ ": " ++ reasonText

/-! ### Families -/

/-- The families of the engine's own faults. -/
inductive EngineClass where
  | base | compile | lex | parse | runtime
  | undefinedVariable | undefinedExecutor | undefinedCondition | undefinedPlaceholder
  | undefinedMember | typeMismatch | divisionByZero | indexOutOfRange | limit | hostCall
  | state
  deriving DecidableEq, Repr

/-- The name of a family. -/
def EngineClass.name : EngineClass → String
  | .base => "TriggerScriptError"
  | .compile => "CompileError"
  | .lex => "LexError"
  | .parse => "ParseError"
  | .runtime => "ScriptRuntimeError"
  | .undefinedVariable => "UndefinedVariableError"
  | .undefinedExecutor => "UndefinedExecutorError"
  | .undefinedCondition => "UndefinedConditionError"
  | .undefinedPlaceholder => "UndefinedPlaceholderError"
  | .undefinedMember => "UndefinedMemberError"
  | .typeMismatch => "TypeMismatchError"
  | .divisionByZero => "DivisionByZeroError"
  | .indexOutOfRange => "IndexOutOfRangeError"
  | .limit => "ImplementationLimitError"
  | .hostCall => "HostCallError"
  | .state => "InterpreterStateError"

/-- The family itself and the families that contain it, from the smallest on. -/
def EngineClass.lineage : EngineClass → List EngineClass
  | .base => [.base]
  | .compile => [.compile, .base]
  | .lex => [.lex, .compile, .base]
  | .parse => [.parse, .compile, .base]
  | .runtime => [.runtime, .base]
  | .state => [.state, .base]
  | c => [c, .runtime, .base]

/-- Faults that are not the engine's own. -/
inductive Plain where
  | value | key | runtime | type | zeroDivision | index | attribute | overflow | recursion
  | memory | exhausted | decoding
  | os | wouldBlock | brokenPipe | childProcess | connectionAborted | connectionRefused
  | connectionReset | fileExists | fileNotFound | interrupted | isDirectory | notDirectory
  | permission | noProcess | timeout
  deriving DecidableEq, Repr

/-- The name of the class of a plain fault. -/
def Plain.name : Plain → String
  | .value => "ValueError"
  | .key => "KeyError"
  | .runtime => "RuntimeError"
  | .type => "TypeError"
  | .zeroDivision => "ZeroDivisionError"
  | .index => "IndexError"
  | .attribute => "AttributeError"
  | .overflow => "OverflowError"
  | .recursion => "RecursionError"
  | .memory => "MemoryError"
  | .exhausted => "StopIteration"
  | .decoding => "UnicodeDecodeError"
  | .os => "OSError"
  | .wouldBlock => "BlockingIOError"
  | .brokenPipe => "BrokenPipeError"
  | .childProcess => "ChildProcessError"
  | .connectionAborted => "ConnectionAbortedError"
  | .connectionRefused => "ConnectionRefusedError"
  | .connectionReset => "ConnectionResetError"
  | .fileExists => "FileExistsError"
  | .fileNotFound => "FileNotFoundError"
  | .interrupted => "InterruptedError"
  | .isDirectory => "IsADirectoryError"
  | .notDirectory => "NotADirectoryError"
  | .permission => "PermissionError"
  | .noProcess => "ProcessLookupError"
  | .timeout => "TimeoutError"

/-- The class of the fault that the operating system reports by a number. -/
def Plain.ofSystem (number : Int) : Plain :=
  if number = 1 ∨ number = 13 then .permission
  else if number = 2 then .fileNotFound
  else if number = 3 then .noProcess
  else if number = 4 then .interrupted
  else if number = 10 then .childProcess
  else if number = 11 ∨ number = 114 ∨ number = 115 then .wouldBlock
  else if number = 17 then .fileExists
  else if number = 20 then .notDirectory
  else if number = 21 then .isDirectory
  else if number = 32 ∨ number = 108 then .brokenPipe
  else if number = 103 then .connectionAborted
  else if number = 104 then .connectionReset
  else if number = 110 then .timeout
  else if number = 111 then .connectionRefused
  else .os

/-- The family of a cause. -/
def Cause.family : Cause → EngineClass
  | .undefinedVariable _ => .undefinedVariable
  | .undefinedExecutor _ => .undefinedExecutor
  | .undefinedCondition _ => .undefinedCondition
  | .undefinedPlaceholder _ => .undefinedPlaceholder
  | .undefinedMember _ => .undefinedMember
  | .mismatch _ => .typeMismatch
  | .divisionByZero => .divisionByZero
  | .indexOutOfRange _ _ => .indexOutOfRange
  | .limit _ => .limit
  | .hostCall _ _ _ => .hostCall

/-! ### All faults -/

/-- A part of a fault that a host may look at. -/
inductive Detail where
  /-- A value. -/
  | value (v : Value)
  /-- Something that no script can hold, by its class and as text. -/
  | foreign (className text : String)

/-- A name as a part of a fault. -/
def Detail.ofName (name : Name) : Detail :=
  match name.value? with
  | some v => .value v
  | none => .foreign name.className name.display

/-- A text as a part of a fault. -/
def Detail.text (s : String) : Detail := .value (.text s)

/-- A whole number as a part of a fault. -/
def Detail.int (n : Int) : Detail := .value (.whole n)

/-- A fault. -/
inductive Fault where
  /-- A text that cannot be cut into tokens. -/
  | lex (cause : LexCause) (place : Place)
  /-- Tokens that are no program. -/
  | parse (cause : ParseCause) (place : Place)
  /-- A script that did something wrong, with the line of the node if one is to blame. -/
  | script (cause : Cause) (line : Option Int)
  /-- A second run of an interpreter that is in the given phase. -/
  | used (phase : Phase)
  /-- A request to leave the loop around; one of the host's may be one of the engine's faults
  too. -/
  | leave (text : String) (engine : Bool)
  /-- A request to go on with the next round of the loop around, in the same way. -/
  | next (text : String) (engine : Bool)
  /-- A fault that is not the engine's own. -/
  | plain (kind : Plain) (text : String)
  /-- A fault of the engine's families that the host made itself. -/
  | raised (family : EngineClass) (text : String) (parts : List (String × Detail))
  /-- A fault of the class with this name that has no wording, one of the engine's own or not. -/
  | wordless (className : String) (engine : Bool)
  /-- What ends the whole program, by its class. -/
  | exit (className text : String)
  /-- Nothing that is raised: what the host was asked for does not come to an end. -/
  | unreturned

instance : Inhabited Fault := ⟨.unreturned⟩

/-- A refusal of the host, with its wording. -/
structure Refusal where
  /-- Its class. -/
  kind : Plain
  /-- Its wording. -/
  text : String

namespace Refusal

/-- A refusal as a fault. -/
def fault (r : Refusal) : Fault := .plain r.kind r.text

/-- A result that may be a refusal. -/
def raise {α : Type} (result : Except Refusal α) : Except Fault α :=
  result.mapError fault

/-- What the host says when a whole number has too many digits to be written. -/
def tooManyDigits : Refusal :=
  ⟨.value, "Exceeds the limit (" ++ toString Number.maxDigits ++
    " digits) for integer string conversion; use sys.set_int_max_str_digits() to increase the limit"⟩

end Refusal

namespace Fault

/-- The name of the class of a fault. -/
def className : Fault → String
  | .lex _ _ => EngineClass.lex.name
  | .parse _ _ => EngineClass.parse.name
  | .script cause _ => cause.family.name
  | .used _ => EngineClass.state.name
  | .leave _ _ => "BreakLoop"
  | .next _ _ => "ContinueLoop"
  | .plain kind _ => kind.name
  | .raised family _ _ => family.name
  | .wordless name _ => name
  | .exit name _ => name
  | .unreturned => ""

/-- The complete wording of a fault; empty for one that has none. -/
def message : Fault → String
  | .lex cause place => cause.message ++ place.suffix
  | .parse cause place => cause.message ++ place.suffix
  | .script cause line =>
    cause.message ++
      (match line with
        | some l => " on line " ++ Number.intText l
        | none => "")
  | .used phase => "Interpreter already " ++ phase.text ++ "; create a new one per run"
  | .leave text _ => text
  | .next text _ => text
  | .plain _ text => text
  | .raised _ text _ => text
  | .wordless _ _ => ""
  | .exit _ text => text
  | .unreturned => ""

/-- Whether a fault is an error: calls, runs and the manager catch those and nothing else. -/
def isCaught : Fault → Bool
  | .exit _ _ => false
  | .unreturned => false
  | _ => true

/-- Whether a fault is one of the engine's own. -/
def isEngine : Fault → Bool
  | .leave _ engine => engine
  | .next _ engine => engine
  | .plain _ _ => false
  | .wordless _ engine => engine
  | .exit _ _ => false
  | .unreturned => false
  | _ => true

/-- Whether calls let a fault pass as it is: they do not catch it, or it is one of the engine's. -/
def passes (fault : Fault) : Bool := !fault.isCaught || fault.isEngine

/-- Whether a fault says that a text does not compile. -/
def isCompile : Fault → Bool
  | .lex _ _ => true
  | .parse _ _ => true
  | .raised family _ _ => family.lineage.contains .compile
  | _ => false

/-- Whether a fault says that there is no such attribute. -/
def isNoAttribute (fault : Fault) : Bool :=
  fault.isCaught && fault.className == Plain.attribute.name

/-- A text that may be missing, as a part of a fault. -/
def optionText : Option String → Detail
  | some s => .text s
  | none => .value .null

/-- The parts that every fault of a text has. -/
def placeDetails (kind text : String) (place : Place) : List (String × Detail) :=
  [("kind", .text kind), ("text", .text text), ("line", .int place.line),
    ("column", .int place.column), ("file", optionText place.file)]

/-- The parts of a cause. -/
def causeDetails : Cause → List (String × Detail)
  | .undefinedVariable name => [("varname", .ofName name)]
  | .undefinedExecutor name => [("name", .ofName name)]
  | .undefinedCondition name => [("name", .ofName name)]
  | .undefinedPlaceholder name => [("name", .ofName name)]
  | .undefinedMember name => [("member", .ofName name)]
  | .indexOutOfRange index length => [("index", .int index), ("length", .int length)]
  | .hostCall name _ _ => [("name", .text name)]
  | _ => []

/-- The parts of a fault that a host may look at, by name. -/
def details : Fault → List (String × Detail)
  | .lex cause place => placeDetails "lex" cause.message place
  | .parse cause place =>
    placeDetails "parse" cause.message place ++
      [("expected", optionText cause.wanted?), ("found", optionText cause.found?)]
  | .script cause line =>
    ("line", match line with
      | some l => .int l
      | none => .value .null) :: causeDetails cause
  | .raised _ _ parts => parts
  | _ => []

/-- The fault of a number operation without result. -/
def ofTrouble (t : Number.Trouble) : Fault :=
  .plain .overflow t.message

/-- The fault of a whole number that has too many digits to be written. -/
def tooManyDigits : Fault := Refusal.tooManyDigits.fault

/-- A script that did something wrong at a line.  A line that cannot be written is a fault of its
own. -/
def ofCause (line : Line) (cause : Cause) : Fault :=
  match line with
  | .number n => if (Number.intText? n).isSome then .script cause (some n) else tooManyDigits
  | .other .null => .script cause none
  | .other name =>
    .raised cause.family (cause.message ++ " on line " ++ name.display)
      (("line", .ofName name) :: causeDetails cause)

/-- The wording of a fault, or what the host says if it has none. -/
def wording : Fault → Except Fault String
  | .wordless _ _ => .error tooManyDigits
  | fault => .ok fault.message

/-- What the host says when a whole number has too many digits to be read. -/
def tooManyDigitsRead (count : Nat) : Fault :=
  .plain .value ("Exceeds the limit (" ++ toString Number.maxDigits ++
    " digits) for integer string conversion: value has " ++ toString count ++
    " digits; use sys.set_int_max_str_digits() to increase the limit")

/-- What the host says when a value cannot be a key. -/
def unhashable (v : Value) : Fault :=
  .plain .type ("unhashable type: '" ++ v.className ++ "'")

end Fault

end TriggerEngine
