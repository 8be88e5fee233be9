/-
**Cursors.**

A cursor reads a tape.  It stands on one token, may look at tokens further on without moving, and
complains at the token it stands on.  Tokens that were looked at are kept in a buffer in front of
the unread ones; the token, the buffer and the unread tokens together are always what is left of
the tape.

The cursor counts how many levels of brackets, blocks and signs are open and in how many loops it
is.  A complaint leaves the count of levels as it stands, and the count of loops as it was before
the loop.

Main definitions:

* `Cursor`, `Parse` — a cursor, and computations that move one;
* `Parse.advance`, `Parse.peek`, `Parse.significant`, `Parse.eat` — moving and looking;
* `Parse.enter`, `Parse.leave` — levels;
* `Parse.expected` — complaining.
-/

import TriggerEngine.Token.Tape

set_option autoImplicit false

namespace TriggerEngine

/-- A place on a tape, with what is left to read. -/
structure Cursor where
  /-- The token the cursor stands on. -/
  current : Token
  /-- Tokens that were looked at but not reached. -/
  ahead : List Token
  /-- Tokens that were not looked at. -/
  rest : List Token
  /-- What is met behind the last token. -/
  fault : Option Fault
  /-- The name of the script. -/
  file : String
  /-- How many levels are open. -/
  nesting : Int
  /-- How many loops are open. -/
  loops : Nat

namespace Cursor

/-- A cursor on the first token of a tape, or what is met instead. -/
def start (file : String) (t : Tape) : Except Fault Cursor :=
  match t.tokens with
  | token :: rest => .ok ⟨token, [], rest, t.fault, file, 0, 0⟩
  | [] => .error (t.fault.getD (.plain .exhausted ""))

/-- The place of the current token. -/
def place (c : Cursor) : Place :=
  ⟨c.current.line, c.current.column, some c.file⟩

/-- How many tokens lie behind the current one. -/
def remaining (c : Cursor) : Nat :=
  c.ahead.length + c.rest.length

/-- How many more levels may be opened. -/
def levels (c : Cursor) : Nat :=
  (maxNesting - c.nesting).toNat

/-- Takes the next unread token.  A fault at the end of the tape is met once; behind it there is
nothing. -/
def pull (c : Cursor) : Except Fault Token × Cursor :=
  match c.rest with
  | token :: rest => (.ok token, { c with rest })
  | [] =>
    match c.fault with
    | some fault => (.error fault, { c with fault := none })
    | none => (.error (.plain .exhausted ""), c)

/-- Looks `count` tokens further than the buffer reaches, but not behind the end of the script. -/
def fill : Nat → Cursor → Except Fault Unit × Cursor
  | 0, c => (.ok (), c)
  | count + 1, c =>
    if c.ahead.getLast?.any (·.is .eof) then (.ok (), c)
    else
      match c.pull with
      | (.ok token, c) => fill count { c with ahead := c.ahead ++ [token] }
      | (.error fault, c) => (.error fault, c)

end Cursor

/-- A computation that moves a cursor and may complain.  The cursor stays where the complaint
left it. -/
abbrev Parse := ExceptT Fault (StateM Cursor)

namespace Parse

/-- A computation from a transition of cursors. -/
def ofStep {α : Type} (step : Cursor → Except Fault α × Cursor) : Parse α :=
  ExceptT.mk fun c => step c

/-- Runs a computation from a cursor. -/
def runFrom {α : Type} (p : Parse α) (c : Cursor) : Except Fault α × Cursor :=
  (ExceptT.run p) c

/-! ### Looking -/

/-- The token the cursor stands on. -/
def current : Parse Token := do
  return (← get).current

/-- Whether the cursor stands on a token of a kind. -/
def at? (kind : Kind) : Parse Bool := do
  return (← get).current.is kind

/-- Whether the cursor stands on a mark. -/
def atSymbol (s : Symbol) : Parse Bool :=
  at? (.symbol s)

/-- Whether the cursor stands on a word of the language. -/
def atKeyword (k : Keyword) : Parse Bool :=
  at? (.keyword k)

/-- The token `offset` places behind the current one, or the end of the script if there are fewer.
An offset of zero or below counts back from the end of the buffer. -/
def peek (offset : Int) : Parse Token := do
  let c ← get
  if c.current.is .eof then return c.current
  ofStep (Cursor.fill (offset - c.ahead.length).toNat)
  let ahead := (← get).ahead
  let i := if 0 < offset then min (offset - 1) (ahead.length - 1) else ahead.length + offset - 1
  match (if i < 0 then none else ahead[i.toNat]?) with
  | some token => return token
  | none => throw (.plain .index "deque index out of range")

/-- The first token from `offset` on that does not end a line, looking at no more than `fuel`. -/
def significantF : Nat → Nat → Token → Parse Token
  | 0, _, token => return token
  | fuel + 1, offset, token => do
    if token.is .newline then significantF fuel (offset + 1) (← peek (offset + 1)) else return token

/-- The first token, from the current one on, that does not end a line. -/
def significant : Parse Token := do
  let c ← get
  significantF (c.remaining + 2) 0 c.current

/-! ### Complaining -/

/-- Complains about the current token. -/
def complain {α : Type} (cause : ParseCause) : Parse α := do
  throw (.parse cause (← get).place)

/-- Complains that something else was expected. -/
def expected {α : Type} (wanted : String) : Parse α := do
  complain (.expected wanted (← current).item.describe)

/-! ### Moving -/

/-- Moves to the next token. -/
def advance : Parse Unit :=
  ofStep fun c =>
    match c.ahead with
    | token :: ahead => (.ok (), { c with current := token, ahead })
    | [] =>
      match c.pull with
      | (.ok token, c) => (.ok (), { c with current := token })
      | (.error fault, c) => (.error fault, c)

/-- Takes a token of a kind and moves on; the end of the script is never left. -/
def eat (kind : Kind) : Parse Token := do
  let token ← current
  if !token.is kind then expected kind.wanted
  if !token.is .eof then advance
  return token

/-- Takes a mark. -/
def eatSymbol (s : Symbol) : Parse Token :=
  eat (.symbol s)

/-- Takes a word of the language. -/
def eatKeyword (k : Keyword) : Parse Token :=
  eat (.keyword k)

/-- Passes tokens of a kind, at most `fuel`. -/
def skipF (p : Token → Bool) : Nat → Parse Unit
  | 0 => return
  | fuel + 1 => do
    if p (← current) then
      advance
      skipF p fuel

/-- Whether a token does nothing but end a statement. -/
def isSeparator (token : Token) : Bool :=
  token.is .newline || token.is (.symbol .semi)

/-- Passes everything that does nothing but end a statement. -/
def skipSeparators : Parse Unit := do
  let c ← get
  if isSeparator c.current then skipF isSeparator (c.remaining + 1)

/-- Passes the ends of lines. -/
def skipLines : Parse Unit := do
  skipF (·.is .newline) ((← get).remaining + 1)

/-- A name after a sigil or a dot; words of the language are names there. -/
def name : Parse String := do
  match (← current).item.name? with
  | some name =>
    advance
    return name
  | none => expected "a name"

/-- A name of a variable. -/
def identifier : Parse String := do
  match (← eat .ident).item with
  | .ident name => return name
  | _ => expected Kind.ident.wanted

/-! ### Levels -/

/-- Opens a level. -/
def enter : Parse Unit := do
  modify fun c => { c with nesting := c.nesting + 1 }
  if (maxNesting : Int) < (← get).nesting then complain .nesting

/-- Closes a level. -/
def leave : Parse Unit :=
  modify fun c => { c with nesting := c.nesting - 1 }

/-- Runs a computation inside a loop. -/
def inLoop {α : Type} (p : Parse α) : Parse α :=
  ofStep fun c =>
    let (result, c) := p.runFrom { c with loops := c.loops + 1 }
    (result, { c with loops := c.loops - 1 })

end Parse

end TriggerEngine
