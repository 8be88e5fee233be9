/-
**Registries.**

A host makes its routines known to scripts by registering capabilities under names.  A capability
is a routine, reached in one of several ways, or just some value of the host.  A registry accepts
only what can be called in the end: by the method that the registry calls, or directly.  A name that
is handed in without a capability comes back as a decorator, by which a capability can be registered
later.

Main definitions:

* `Method`, `Style`, `Capability` — how capabilities are called;
* `Registry`, `Registry.Sort` — the capabilities under names, and for what;
* `Registry.register`, `Registry.unregister` — changing a registry;
* `Registry.submit`, `Registry.decorate` — registering at once and later;
* `Registry.ofEntries` — a registry with entries to start with.
-/

import TriggerEngine.Fault
import TriggerEngine.Syntax.Node
import TriggerEngine.Table

set_option autoImplicit false

namespace TriggerEngine

/-- The methods that registries call. -/
inductive Method where
  | invoke | evaluate
  deriving DecidableEq, Repr

/-- The name of a method. -/
def Method.name : Method → String
  | .invoke => "invoke"
  | .evaluate => "evaluate"

/-- In which ways a routine is reached. -/
inductive Style where
  /-- Directly. -/
  | direct
  /-- By one method. -/
  | only (method : Method)
  /-- By both methods and directly. -/
  | both
  /-- Directly; the methods are there but cannot be called. -/
  | shadowed
  deriving DecidableEq, Repr

/-- Whether a routine of this style is reached directly. -/
def Style.isDirect : Style → Bool
  | .only _ => false
  | _ => true

/-- What can be registered. -/
inductive Capability where
  /-- A routine of the host, by its number. -/
  | routine (id : Nat) (style : Style)
  /-- A value. -/
  | value (v : Value)

/-- What a registry is for. -/
inductive Registry.Sort where
  /-- Routines of a role. -/
  | role (r : Role)
  /-- Anything. -/
  | any
  deriving DecidableEq, Repr

namespace Registry.Sort

/-- The method that a registry calls. -/
def method : Registry.Sort → Method
  | .role .condition => .evaluate
  | _ => .invoke

/-- How the entries of a registry are named. -/
def noun : Registry.Sort → String
  | .role r => r.name
  | .any => "capability"

/-- How the entries of a registry are named at the start of a sentence. -/
def title : Registry.Sort → String
  | .role .executor => "Executor"
  | .role .condition => "Condition"
  | .role .placeholder => "Placeholder"
  | .any => "Capability"

end Registry.Sort

/-- Capabilities under names. -/
structure Registry where
  /-- What the registry is for. -/
  sort : Registry.Sort
  /-- The capabilities. -/
  entries : Table Capability

namespace Registry

/-- A registry without entries. -/
def empty (sort : Registry.Sort) : Registry := ⟨sort, .empty⟩

/-- Registers a capability.  `reachable` tells whether it can be called by the method of the
registry; finding that out may fail.  A name that is taken is refused unless the new capability is
to replace the old one, which keeps its place. -/
def register (r : Registry) (reachable : Except Fault Bool) (name : String) (c : Capability)
    (replace : Bool) : Except Fault Registry := do
  if !(← reachable) then
    throw (.plain .type (r.sort.noun ++ " '" ++ name ++ "' must define " ++ r.sort.method.name ++
      "() or be callable"))
  if r.entries.has name && !replace then
    throw (.plain .value (r.sort.title ++ " '" ++ name ++
      "' is already registered. Unregister it first to re-register."))
  return { r with entries := r.entries.put name c }

/-- What registers a capability under a name later. -/
structure Decorator where
  /-- The name. -/
  name : String
  /-- Whether a capability that is there is to be replaced. -/
  replace : Bool

/-- What comes back from a registry. -/
inductive Receipt where
  /-- The capability that was registered. -/
  | capability (c : Capability)
  /-- A decorator for the name. -/
  | decorator (d : Decorator)

/-- Hands a name to a registry, with a capability or without one. -/
def submit (r : Registry) (reachable : Capability → Except Fault Bool) (name : String)
    (c? : Option Capability) (replace : Bool) : Except Fault (Receipt × Registry) :=
  match c? with
  | none => .ok (.decorator ⟨name, replace⟩, r)
  | some c => (r.register (reachable c) name c replace).map (Receipt.capability c, ·)

/-- Registers what a decorator is put on. -/
def decorate (r : Registry) (reachable : Capability → Except Fault Bool) (d : Decorator)
    (c? : Option Capability) : Except Fault Registry :=
  (r.submit reachable d.name c? d.replace).map Prod.snd

/-- A registry with entries to start with. -/
def ofEntries (sort : Registry.Sort) (reachable : Capability → Except Fault Bool)
    (entries : List (String × Option Capability)) : Except Fault Registry :=
  entries.foldlM (fun r entry => (r.submit reachable entry.1 entry.2 false).map Prod.snd)
    (empty sort)

/-- Removes a name, if it is there. -/
def unregister (r : Registry) (name : String) : Registry :=
  { r with entries := r.entries.erase name }

end Registry

end TriggerEngine
