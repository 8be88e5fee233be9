/-
**Making faults.**

A host raises faults of its own, and it may raise any of the engine's as well.  A fault is made
from its class and a row of arguments, which are values or other faults; each class says how many
arguments it takes, what they mean and how they are worded.

A message that a place is added to has to be a text, or else a list, at whose end the place is put
character by character; the list itself is changed then.

Main definitions:

* `FaultClass`, `FaultClass.ofName?` — the classes, by name;
* `Made`, `Argument` — a fault that was made, and what a fault is made from;
* `Making` — making something, which may change lists and may fail;
* `Fault.make` — the fault, or the fault that the arguments do not fit.
-/

import TriggerEngine.Value.Written

set_option autoImplicit false

namespace TriggerEngine

/-- The classes of faults. -/
inductive FaultClass where
  /-- One of the engine's. -/
  | engine (family : EngineClass)
  /-- A request to leave the loop around. -/
  | leave
  /-- A request to go on with the next round. -/
  | next
  /-- Any other. -/
  | plain (kind : Plain)
  deriving DecidableEq, Repr

namespace FaultClass

/-- The classes that have names. -/
def all : List (String × FaultClass) :=
  ([.base, .compile, .lex, .parse, .runtime, .undefinedVariable, .undefinedExecutor,
    .undefinedCondition, .undefinedPlaceholder, .undefinedMember, .typeMismatch, .divisionByZero,
    .indexOutOfRange, .limit, .hostCall, .state].map fun c : EngineClass => (c.name, .engine c)) ++
  [("BreakLoop", .leave), ("ContinueLoop", .next)] ++
  ([.value, .key, .runtime, .type, .zeroDivision, .index, .attribute, .os].map
    fun k : Plain => (k.name, .plain k))

/-- The class with a name. -/
def ofName? (name : String) : Option FaultClass :=
  all.lookup name

/-- The names of the class and of the classes of the engine that contain it, from the smallest
on. -/
def lineage : FaultClass → List String
  | .engine family => family.lineage.map EngineClass.name
  | .leave => ["BreakLoop"]
  | .next => ["ContinueLoop"]
  | .plain _ => []

end FaultClass

/-- A fault that was made, and how it is written inside something else. -/
structure Made where
  /-- The fault. -/
  fault : Fault
  /-- How it is written, or why it cannot be. -/
  inspected : Except Fault String

/-- What a fault is made from. -/
inductive Argument where
  /-- A value. -/
  | value (v : Value)
  /-- Another fault. -/
  | fault (made : Made)

/-- Making something, which may change lists and may fail. -/
abbrev Making := ExceptT Fault (StateM Heap)

namespace Heap

/-- How deep values are followed when a fault is worded. -/
def wordingLevels : Nat := 1000

end Heap

namespace Argument

/-- An argument on its own as text. -/
def display (labels : Heap.Labels) (h : Heap) : Argument → Except Fault String
  | .value v => (h.display labels Heap.wordingLevels v).mapError Heap.Unwritable.fault
  | .fault made => made.fault.wording

/-- An argument inside something else as text. -/
def inspect (labels : Heap.Labels) (h : Heap) : Argument → Except Fault String
  | .value v => (h.inspect labels Heap.wordingLevels [] [] v).mapError Heap.Unwritable.fault
  | .fault made => made.inspected

/-- The class of an argument. -/
def className : Argument → String
  | .value v => v.className
  | .fault made => made.fault.className

/-- An argument as a part of a fault. -/
def detail : Argument → Detail
  | .value v => .value v
  | .fault made => .foreign made.fault.className made.fault.message

/-- The argument that stands for none. -/
def absent : Argument := .value .null

/-- Whether an argument is nothing. -/
def isAbsent : Argument → Bool
  | .value .null => true
  | _ => false

end Argument

namespace Fault

/-! ### Rows of arguments -/

/-- Texts of arguments, the first failure first. -/
def inspectAll (labels : Heap.Labels) (h : Heap) : List Argument → Except Fault (List String)
  | [] => .ok []
  | a :: rest => do
    let text ← a.inspect labels h
    return text :: (← inspectAll labels h rest)

/-- Arguments in a row. -/
def rowText (labels : Heap.Labels) (h : Heap) (args : List Argument) : Except Fault String := do
  return "(" ++ ", ".intercalate (← inspectAll labels h args) ++ ")"

/-- The wording of a fault that takes any arguments: nothing, the only argument, or all of them
in a row. -/
def joined (labels : Heap.Labels) (h : Heap) : List Argument → Except Fault String
  | [] => .ok ""
  | [a] => a.display labels h
  | args => rowText labels h args

/-- A fault with its arguments, written inside something else. -/
def inspected (labels : Heap.Labels) (h : Heap) (className : String) (args : List Argument) :
    Except Fault String :=
  (rowText labels h args).map (className ++ ·)

/-- The fault of a wording, or one without if that cannot be written. -/
def worded (text : Except Fault String) (className : String) (engine : Bool)
    (make : String → Fault) : Fault :=
  match text with
  | .ok text => make text
  | .error _ => .wordless className engine

/-! ### Numbers of arguments -/

/-- Names joined as in a sentence. -/
def listNames : List String → String
  | [] => ""
  | [a] => a
  | [a, b] => a ++ " and " ++ b
  | a :: rest => a ++ ", " ++ listNames rest

/-- The complaint that arguments are missing. -/
def missing (owner : String) (names : List String) : Fault :=
  .plain .type (owner ++ ".__init__() missing " ++ toString names.length ++
    " required positional argument" ++ (if names.length == 1 then "" else "s") ++ ": " ++
    listNames (names.map fun n => "'" ++ n ++ "'"))

/-- The complaint that there are too many arguments; the fault itself counts as one. -/
def tooMany (owner : String) (least most given : Nat) : Fault :=
  .plain .type (owner ++ ".__init__() takes " ++
    (if least == most then toString (most + 1) else
      "from " ++ toString (least + 1) ++ " to " ++ toString (most + 1)) ++
    " positional arguments but " ++ toString (given + 1) ++ " were given")

/-- Fits arguments to the names that are required and a number of further ones, which are nothing
if they are not given. -/
def fit (owner : String) (required : List String) (further : Nat) (args : List Argument) :
    Making (List Argument) :=
  if args.length < required.length then throw (missing owner (required.drop args.length))
  else if required.length + further < args.length then
    throw (tooMany owner required.length (required.length + further) args.length)
  else
    return args ++ List.replicate (required.length + further - args.length) .absent

/-- The argument at a place. -/
def argument (args : List Argument) (i : Nat) : Argument := args.getD i .absent

/-! ### Messages -/

/-- An argument on its own as text. -/
def displayed (labels : Heap.Labels) (a : Argument) : Making String := do
  match a.display labels (← get) with
  | .ok text => return text
  | .error fault => throw fault

/-- A message with something behind it.  Only a text can be continued, and a list by the characters
of what comes behind it. -/
def continued (message : Argument) (suffix : String) : Making Argument :=
  match message with
  | .value (.str s _) => return .value (.text (s ++ suffix))
  | .value (.list ref) => do
    let cs := (suffix.toList.map fun c => Value.text (String.singleton c)).toArray
    modify fun h => h.modifyList ref (· ++ cs)
    return message
  | a => throw (.plain .type
      ("unsupported operand type(s) for +=: '" ++ a.className ++ "' and 'str'"))

/-- A message with an argument behind it, unless that is nothing. -/
def continuedBy (labels : Heap.Labels) (lead : String) (a message : Argument) :
    Making Argument := do
  if a.isAbsent then return message
  continued message (lead ++ (← displayed labels a))

/-- A fault of one of the engine's families with a message and parts. -/
def makeRaised (labels : Heap.Labels) (family : EngineClass) (message : Argument)
    (parts : List (String × Detail)) : Making Made := do
  let h ← get
  return ⟨worded (message.display labels h) family.name true (.raised family · parts),
    inspected labels h family.name [message]⟩

/-- A fault of a text: message, line, column and file, and for the tokens of a program what was
expected and what was found. -/
def makeCompile (labels : Heap.Labels) (family : EngineClass) (kind : String)
    (args : List Argument) : Making Made := do
  let message := argument args 0
  let line := argument args 1
  let column := argument args 2
  let file := argument args 3
  let text ← continuedBy labels " on line " line message
  let text ← if line.isAbsent then pure text else continuedBy labels ", column " column text
  let text ← continuedBy labels " in " file text
  makeRaised labels family text
    ([("kind", .text kind), ("text", message.detail), ("line", line.detail),
      ("column", column.detail), ("file", file.detail)] ++
    (["expected", "found"].zip (args.drop 4)).map fun (name, a) => (name, a.detail))

/-- A fault of a run with a message and a line. -/
def makeRuntime (labels : Heap.Labels) (family : EngineClass) (message line : Argument)
    (parts : List (String × Detail)) : Making Made := do
  let text ← continuedBy labels " on line " line message
  makeRaised labels family text (("line", line.detail) :: parts)

/-- A text as an argument. -/
def textArgument (s : String) : Argument := .value (.text s)

/-- A fault that names what is not there. -/
def makeUndefined (labels : Heap.Labels) (family : EngineClass) (noun key : String)
    (args : List Argument) : Making Made := do
  let args ← fit family.name [key] 1 args
  let name := argument args 0
  let message := "Undefined " ++ noun ++ " '" ++ (← displayed labels name) ++ "'"
  makeRuntime labels family (textArgument message) (argument args 1) [(key, name.detail)]

/-! ### The classes -/

/-- A fault that takes any arguments. -/
def makeFree (labels : Heap.Labels) (className : String) (engine : Bool)
    (text : Except Fault String) (args : List Argument) (make : String → Fault) : Making Made := do
  return ⟨worded text className engine make, inspected labels (← get) className args⟩

/-- A fault of one of the engine's families. -/
def makeEngine (labels : Heap.Labels) (family : EngineClass) (args : List Argument) :
    Making Made := do
  let free : Making Made := do
    makeFree labels family.name true (joined labels (← get) args) args (.raised family · [])
  match family with
  | .base => free
  | .state => free
  | .compile => makeCompile labels family "compile" (← fit "CompileError" ["message"] 3 args)
  | .lex => makeCompile labels family "lex" (← fit "CompileError" ["message"] 3 args)
  | .parse => makeCompile labels family "parse" (← fit "ParseError" ["message"] 5 args)
  | .undefinedVariable => makeUndefined labels family "variable" "varname" args
  | .undefinedExecutor => makeUndefined labels family "executor" "name" args
  | .undefinedCondition => makeUndefined labels family "condition" "name" args
  | .undefinedPlaceholder => makeUndefined labels family "placeholder" "name" args
  | .undefinedMember => makeUndefined labels family "member" "member" args
  | .divisionByZero =>
    let args ← fit family.name [] 1 args
    makeRuntime labels family (textArgument "Division by zero") (argument args 0) []
  | .indexOutOfRange =>
    let args ← fit family.name ["index", "length"] 1 args
    let index := argument args 0
    let length := argument args 1
    let message := "Index " ++ (← displayed labels index) ++ " out of range for length " ++
      (← displayed labels length)
    makeRuntime labels family (textArgument message) (argument args 2)
      [("index", index.detail), ("length", length.detail)]
  | .hostCall =>
    let args ← fit family.name ["name", "original"] 1 args
    let name := argument args 0
    let reason := argument args 1
    let message := "'" ++ (← displayed labels name) ++ "' failed: " ++ reason.className ++ ": " ++
      (← displayed labels reason)
    makeRuntime labels family (textArgument message) (argument args 2) [("name", name.detail)]
  | _ =>
    let args ← fit "ScriptRuntimeError" ["message"] 1 args
    makeRuntime labels family (argument args 0) (argument args 1) []

/-- The class of a fault of the operating system with a number. -/
def systemKind : Argument → Plain
  | .value v => (v.index?.map Plain.ofSystem).getD .os
  | .fault _ => .os

/-- The bound of whole numbers that can count octets. -/
def octetBound : Int := 2 ^ (63 : Nat)

/-- Whether the third argument of a fault counts octets instead of naming a file.  It does so for
an operation that would block, if it is a number; it has to be a whole one then. -/
def countsOctets (kind : Plain) (file : Argument) : Making Bool :=
  match kind, file with
  | .wouldBlock, .value v =>
    match v.numeric? with
    | none => return false
    | some (.float _) => throw (.plain .type "'float' object cannot be interpreted as an integer")
    | some (.int n) =>
      if n < -octetBound || octetBound ≤ n then
        throw (.plain .value "cannot fit 'int' into an index-sized integer")
      else return true
  | _, _ => return false

/-- The wording of a fault of the operating system: a number and a reason, with the names of one
or two files. -/
def systemText (labels : Heap.Labels) (h : Heap) (number reason : Argument)
    (files : List Argument) : Except Fault String := do
  let head := "[Errno " ++ (← number.display labels h) ++ "] " ++ (← reason.display labels h)
  match files with
  | [] => return head
  | files => return head ++ ": " ++ " -> ".intercalate (← inspectAll labels h files)

/-- A fault of the operating system.  It has a number and a reason if there are from two to five
arguments; the third and the fifth are names of files, and these are no longer among its arguments
then. -/
def makeSystem (labels : Heap.Labels) (args : List Argument) : Making Made := do
  let h ← get
  let plain (kind : Plain) (text : Except Fault String) (args : List Argument) : Making Made :=
    makeFree labels kind.name false text args (.plain kind)
  match args with
  | number :: reason :: rest =>
    if 3 < rest.length then plain .os (joined labels h args) args
    else
      let kind := systemKind number
      match rest with
      | [] => plain kind (systemText labels h number reason []) args
      | file :: more =>
        if file.isAbsent || (← countsOctets kind file) then
          plain kind (systemText labels h number reason []) args
        else
          let second := (more.drop 1).filter fun a => !a.isAbsent
          plain kind (systemText labels h number reason (file :: second)) [number, reason]
  | args => plain .os (joined labels h args) args

/-- The fault of a class with arguments, or the complaint that they do not fit. -/
def make (labels : Heap.Labels) (cls : FaultClass) (args : List Argument) : Making Made := do
  let h ← get
  match cls with
  | .leave => makeFree labels "BreakLoop" false (joined labels h args) args (.leave · false)
  | .next => makeFree labels "ContinueLoop" false (joined labels h args) args (.next · false)
  | .plain .key =>
    let text := match args with
      | [a] => a.inspect labels h
      | args => joined labels h args
    makeFree labels Plain.key.name false text args (.plain .key)
  | .plain .os => makeSystem labels args
  | .plain kind => makeFree labels kind.name false (joined labels h args) args (.plain kind)
  | .engine family => makeEngine labels family args

end Fault

end TriggerEngine
