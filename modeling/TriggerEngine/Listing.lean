/-
**Listings.**

A host that looks at variables or globals sees them by name.  Names that are words stand in the
order of their characters; names of other kinds may have no order among each other, and then there
is no listing.

Main definitions:

* `Locals.listed` — local variables by name;
* `Host.listed` — globals by name.
-/

import TriggerEngine.Host.Basic
import TriggerEngine.Run.State
import TriggerEngine.Value.ListMember

set_option autoImplicit false

namespace TriggerEngine

/-- A sort of entries that may fail. -/
def sortedBy {κ α ε : Type} (lt : Sorting.Compare κ ε) (entries : List (κ × α)) :
    Except ε (List (κ × α)) :=
  match Sorting.sort (fun a b => lt a.1 b.1) entries.toArray with
  | (entries, none) => .ok entries.toList
  | (_, some fault) => .error fault

/-- The order of names, as a comparison that may fail. -/
def Name.order : Sorting.Compare Name Fault := fun a b =>
  (a.before b).mapError fun (left, right) =>
    .plain .type ("'<' not supported between instances of '" ++ left ++ "' and '" ++ right ++ "'")

/-- Local variables by name. -/
def Locals.listed (locals : Locals) : Except Fault (List (Name × Value)) :=
  sortedBy Name.order locals.entries

/-- How deep keys are compared. -/
def Host.keyLevels : Nat := 1000

/-- The globals by name. -/
def Host.listed (host : Host) (h : Heap) : Except Fault (List (Value × Value)) :=
  Refusal.raise (sortedBy (ListMember.order h keyLevels)
    (host.globals.entries.map (fun (name, v) => (.text name, v)) ++ host.unnamed.toList))

end TriggerEngine
