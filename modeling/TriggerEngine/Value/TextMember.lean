/-
**Member functions of texts.**

What scripts may do with a text: change its case, trim, split, search, replace and join it.  A
call with arguments that do not fit is refused with the wording of the host.  A function that leaves
the text as it was answers with the text itself, not with another one of the same characters.

Main definitions:

* `Arguments` — the complaints about arguments that do not fit;
* `TextMember.Answer` — what a member function of a text answers;
* `TextMember.apply` — the call of a member function of a text.
-/

import TriggerEngine.Fault
import TriggerEngine.Text.Case
import TriggerEngine.Text.Digit
import TriggerEngine.Text.Search
import TriggerEngine.Value.Heap

set_option autoImplicit false

namespace TriggerEngine

/-! ### Complaints about arguments -/

namespace Arguments

/-- A complaint about the kind or number of arguments. -/
def refuse {α : Type} (text : String) : Except Refusal α :=
  .error ⟨.type, text⟩

/-- Complains that a function without arguments got some. -/
def noneWanted {α : Type} (function : String) (given : Nat) : Except Refusal α :=
  refuse (function ++ "() takes no arguments (" ++ toString given ++ " given)")

/-- Complains that a function with one argument got another number. -/
def oneWanted {α : Type} (function : String) (given : Nat) : Except Refusal α :=
  refuse (function ++ "() takes exactly one argument (" ++ toString given ++ " given)")

/-- Complains about a number of arguments outside of bounds, for functions that say how many they
take. -/
def countTaken {α : Type} (function : String) (least most given : Nat) : Except Refusal α :=
  let (bound, n) := if given < least then ("least ", least) else ("most ", most)
  refuse (function ++ "() takes at " ++ bound ++ toString n ++ " argument" ++
    (if n == 1 then "" else "s") ++ " (" ++ toString given ++ " given)")

/-- Complains about a number of arguments outside of bounds, for functions that say how many they
expected. -/
def countExpected {α : Type} (function : String) (least most given : Nat) : Except Refusal α :=
  let (bound, n) :=
    if least == most then ("", least)
    else if given < least then ("at least ", least) else ("at most ", most)
  refuse (function ++ " expected " ++ bound ++ toString n ++ " argument" ++
    (if n == 1 then "" else "s") ++ ", got " ++ toString given)

/-- The bound of whole numbers that can count characters or items. -/
def indexBound : Int := 2 ^ (63 : Nat)

/-- A whole number that counts; truth values do. -/
def count (v : Value) : Except Refusal Int :=
  match v.index? with
  | none => refuse ("'" ++ v.className ++ "' object cannot be interpreted as an integer")
  | some n =>
    if n < -indexBound || indexBound ≤ n then
      .error ⟨.overflow, "Python int too large to convert to C ssize_t"⟩
    else .ok n

/-- A count that means "all" if it is negative. -/
def countOrAll (v : Value) : Except Refusal (Option Nat) :=
  (count v).map fun n => if n < 0 then none else some n.toNat

/-- An end of a window; nothing stands for the end of the text. -/
def windowEnd (v : Value) : Except Refusal (Option Int) :=
  if v.isNull then .ok none
  else
    match v.index? with
    | some n => .ok (some n)
    | none => refuse "slice indices must be integers or None or have an __index__ method"

/-- A window from arguments, as many as there are. -/
def window (length : Nat) : List Value → Except Refusal Text.Window
  | [] => .ok (.make length none none)
  | [start] => do return .make length (← windowEnd start) none
  | start :: stop :: _ => do return .make length (← windowEnd start) (← windowEnd stop)

end Arguments

namespace TextMember

open Arguments Text

/-- What a member function of a text answers. -/
inductive Answer where
  /-- A value. -/
  | value (v : Value)
  /-- The text itself. -/
  | itself
  /-- Characters that were cut out of the text. -/
  | part (cs : List Char)
  /-- Characters that were put together. -/
  | built (cs : List Char)

/-- An answer as a value. -/
def Answer.give (text : Value) (h : Heap) : Answer → Value × Heap
  | .value v => (v, h)
  | .itself => (text, h)
  | .part cs => h.newText (String.ofList cs)
  | .built cs => h.builtText (String.ofList cs)

/-- Answers as values. -/
def Answer.giveAll (text : Value) (h : Heap) : List Answer → List Value × Heap
  | [] => ([], h)
  | a :: rest =>
    match a.give text h with
    | (v, h) =>
      match giveAll text h rest with
      | (vs, h) => (v :: vs, h)

/-- What is searched for in a window, and the window; `wanted` is the complaint about anything that
is no text, up to its class. -/
def sought (function wanted : String) (cs : List Char) (args : List Value) :
    Except Refusal (List Char × Window) :=
  match args with
  | [] => countTaken function 1 3 0
  | sub :: ends =>
    if 2 < ends.length then countTaken function 1 3 args.length
    else do
      let w ← window cs.length ends
      match sub with
      | .str s _ => return (s.toList, w)
      | v => refuse (wanted ++ v.className)

/-- A search for a text. -/
def searched (function : String) (cs : List Char) (args : List Value) :
    Except Refusal (List Char × Window) :=
  sought function "must be str, not " cs args

/-- A question about one end of a text. -/
def asked (function : String) (cs : List Char) (args : List Value) :
    Except Refusal (List Char × Window) :=
  sought function (function ++ " first arg must be str or a tuple of str, not ") cs args

/-- What is left of a text after trimming. -/
def trimmed (cs left : List Char) : Answer :=
  if left == cs then .itself else .part left

/-- Trims blanks, or given characters. -/
def strip (cs : List Char) : List Value → Except Refusal Answer
  | [] => .ok (trimmed cs (trim cs))
  | [.null] => .ok (trimmed cs (trim cs))
  | [.str s _] => .ok (trimmed cs (trimBy (s.toList.contains ·) cs))
  | [_] => refuse "strip arg must be None or str"
  | args => countExpected "strip" 0 1 args.length

/-- The pieces of a text; a single one that is all of it is the text itself. -/
def piecesOf (cs : List Char) (pieces : List (List Char)) : List Answer :=
  if pieces == [cs] then [.itself] else pieces.map .part

/-- Splits at blanks or at a separator. -/
def split (cs : List Char) (args : List Value) : Except Refusal (List Answer) :=
  match args with
  | [] => .ok (piecesOf cs (fields cs))
  | sep :: rest =>
    if 1 < rest.length then countTaken "split" 0 2 args.length
    else do
      let most ← countOrAll (rest.headD (.whole (-1)))
      match sep with
      | .null =>
        if most == some 0 then return (fieldsUpTo 0 cs).map .part
        return piecesOf cs (fieldsUpTo (most.getD cs.length) cs)
      | .str "" _ => .error ⟨.value, "empty separator"⟩
      | .str s _ => return piecesOf cs (splitBy s.toList most cs)
      | v => refuse ("must be str or None, not " ++ v.className)

/-- A class as it is named where a text was wanted. -/
def classOrNothing (v : Value) : String :=
  if v.isNull then "None" else v.className

/-- A text with some of its characters replaced, if there is something to replace. -/
def replaced (cs old new : List Char) (most : Option Nat) : Answer :=
  if most == some 0 || (findFirst old cs).isNone then .itself
  else .built (replaceAll old new most cs)

/-- Replaces a text by another. -/
def replace (cs : List Char) (args : List Value) : Except Refusal Answer :=
  match args with
  | old :: new :: rest =>
    if 1 < rest.length then countExpected "replace" 2 3 args.length
    else
      match old, new with
      | .str o _, .str n _ => do
        let most ← countOrAll (rest.headD (.whole (-1)))
        return if old.same new then .itself else replaced cs o.toList n.toList most
      | .str _ _, v => refuse ("replace() argument 2 must be str, not " ++ classOrNothing v)
      | v, _ => refuse ("replace() argument 1 must be str, not " ++ classOrNothing v)
  | _ => countExpected "replace" 2 3 args.length

/-- Joins the texts of a row with another text between them; `i` counts the items before. -/
def joinFrom (sep : List Char) (i : Nat) : List Value → Except Refusal (List Char)
  | [] => .ok []
  | .str s _ :: rest => do
    let tail ← joinFrom sep (i + 1) rest
    return (if i == 0 then [] else sep) ++ s.toList ++ tail
  | v :: _ =>
    refuse ("sequence item " ++ toString i ++ ": expected str instance, " ++ v.className ++ " found")

/-- The texts of a row joined; a text that is alone is itself. -/
def join (sep : List Char) : List Value → Except Refusal Answer
  | [.str s m] => .ok (.value (.str s m))
  | items => (joinFrom sep 0 items).map .built

/-- The call of a member function of a text that needs neither a list nor a sequence. -/
def apply (cs : List Char) (member : Member) (args : List Value) : Except Refusal Answer :=
  match member with
  | .upper => if args.isEmpty then .ok (.built (upper cs)) else noneWanted "str.upper" args.length
  | .lower => if args.isEmpty then .ok (.built (lower cs)) else noneWanted "str.lower" args.length
  | .isdigit =>
    if args.isEmpty then .ok (.value (.bool (!cs.isEmpty && cs.all isDigitLike)))
    else noneWanted "str.isdigit" args.length
  | .strip => strip cs args
  | .startswith => do
    let (sub, w) ← asked "startswith" cs args
    return .value (.bool (w.fits sub.length && sub.isPrefixOf (w.view cs)))
  | .endswith => do
    let (sub, w) ← asked "endswith" cs args
    return .value (.bool (w.fits sub.length && sub.reverse.isPrefixOf (w.view cs).reverse))
  | .find => do
    let (sub, w) ← searched "find" cs args
    let found := if w.fits sub.length then findFirst sub (w.view cs) else none
    return .value (.whole (match found with
      | some i => (w.start + i : Nat)
      | none => -1))
  | .countText => do
    let (sub, w) ← searched "count" cs args
    return .value (.whole (if w.fits sub.length then countAll sub (w.view cs) else 0 : Nat))
  | .replace => replace cs args
  | _ => refuse ""

end TextMember

end TriggerEngine
