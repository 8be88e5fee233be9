/-
**Tapes.**

The lexemes of a script become a tape: tokens with their positions, ended either by the end of the
script or by the fault of a lexeme that has no meaning.  A reader of the tape meets the fault only
when it gets there, so what stands before a bad lexeme can still be looked at.

Blanks and comments leave no token.  The end of a line leaves one only outside parentheses and
brackets, so a long list of arguments may run over several lines.

Places are counted off character by character.  A reader may as well keep up where the line starts.

Main definitions:

* `Position`, `Position.past` — places in a script, and the place behind some characters;
* `Lexeme.read` — what a lexeme contributes;
* `Tape`, `tape` — the tape of a script;
* `Bookkeeping`, `scan` — the tape, by what is kept up about the line.
-/

import TriggerEngine.Fault
import TriggerEngine.Number.Reading
import TriggerEngine.Token.Lexeme

set_option autoImplicit false

namespace TriggerEngine

open Text

/-! ### Positions -/

/-- A place in a script, counted from one. -/
structure Position where
  /-- The line. -/
  line : Nat
  /-- The column. -/
  column : Nat
  deriving DecidableEq, Repr

namespace Position

/-- The start of a script. -/
def start : Position := ⟨1, 1⟩

/-- The place behind a character. -/
def step (p : Position) (c : Char) : Position :=
  if c == '\n' then ⟨p.line + 1, 1⟩ else ⟨p.line, p.column + 1⟩

/-- The place behind some characters. -/
def past (p : Position) (cs : List Char) : Position :=
  cs.foldl step p

@[simp] theorem past_nil (p : Position) : p.past [] = p := rfl

@[simp] theorem past_append (p : Position) (cs ds : List Char) :
    p.past (cs ++ ds) = (p.past cs).past ds := by
  simp [past, List.foldl_append]

end Position

/-! ### What a lexeme contributes -/

/-- What a lexeme contributes to the tape. -/
inductive Contribution where
  /-- Nothing. -/
  | nothing
  /-- A token. -/
  | item (item : Item)
  /-- The end of the tape. -/
  | fault (fault : Fault)

/-- The whole number that a row of digits writes, unless there are too many. -/
def readWhole (digits : List Char) : Contribution :=
  if digits.length ≤ Number.maxDigits then .item (.number (.int (decimalValue 0 digits)))
  else .fault (.tooManyDigitsRead digits.length)

/-- The double nearest to a row of digits with a point in it. -/
def readDecimal (text : List Char) : Float :=
  let whole := text.takeWhile isDecimal
  let places := text.drop (whole.length + 1)
  Number.ofDecimal false (decimalValue 0 (whole ++ places)) (-(places.length : Int))

/-- What a lexeme contributes at a place inside `brackets` open brackets. -/
def Lexeme.read (file : Option String) (p : Position) (brackets : Nat) (lexeme : Lexeme) :
    Contribution :=
  let fault (cause : LexCause) : Contribution := .fault (.lex cause ⟨p.line, p.column, file⟩)
  match lexeme.cls with
  | .blockComment => .nothing
  | .lineComment => .nothing
  | .blank => .nothing
  | .newline => if brackets == 0 then .item .newline else .nothing
  | .decimal => .item (.number (.float (readDecimal lexeme.text)))
  | .whole => readWhole lexeme.text
  | .string => .item (.string (String.ofList (Literal.decode lexeme.text)))
  | .keyword k => .item (.keyword k)
  | .ident => .item (.ident (String.ofList lexeme.text))
  | .symbol s => .item (.symbol s)
  | .openComment => fault .openComment
  | .openString => fault .openString
  | .stray => fault (.unexpected (lexeme.text.headD ' '))

/-- How many brackets are open behind a lexeme; a closing one without partner is not counted. -/
def Lexeme.bracketsAfter (brackets : Nat) (lexeme : Lexeme) : Nat :=
  match lexeme.cls with
  | .symbol .lparen => brackets + 1
  | .symbol .lbracket => brackets + 1
  | .symbol .rparen => brackets - 1
  | .symbol .rbracket => brackets - 1
  | _ => brackets

/-! ### The tape -/

/-- Tokens, and the fault that stops the reading behind them, if one does. -/
structure Tape where
  /-- The tokens that can be read. -/
  tokens : List Token
  /-- What is met behind the last of them. -/
  fault : Option Fault

/-- The tape of lexemes that start at a place inside open brackets. -/
def tapeFrom (file : Option String) : Position → Nat → List Lexeme → Tape
  | p, _, [] => ⟨[⟨.eof, p.line, p.column⟩], none⟩
  | p, brackets, lexeme :: rest =>
    match lexeme.read file p brackets with
    | .nothing => tapeFrom file (p.past lexeme.text) (lexeme.bracketsAfter brackets) rest
    | .fault fault => ⟨[], some fault⟩
    | .item item =>
      let tail := tapeFrom file (p.past lexeme.text) (lexeme.bracketsAfter brackets) rest
      { tail with tokens := ⟨item, p.line, p.column⟩ :: tail.tokens }

/-- The tape of a script. -/
def tape (file : Option String) (source : String) : Tape :=
  tapeFrom file .start 0 (lexemes source.toList)

/-- All tokens of a script, or the fault that its tape ends with. -/
def Tape.whole (t : Tape) : Except Fault (List Token) :=
  match t.fault with
  | some fault => .error fault
  | none => .ok t.tokens

/-! ### The tape by starts of lines -/

/-- What is kept up while lexemes are read one after the other: the line, the offset at which it
starts, and how many brackets are open. -/
structure Bookkeeping where
  line : Nat := 1
  start : Nat := 0
  brackets : Nat := 0

namespace Bookkeeping

/-- The place of an offset in the line. -/
def place (b : Bookkeeping) (offset : Nat) : Position :=
  ⟨b.line, offset - b.start + 1⟩

/-- What is kept behind a lexeme at an offset.  Only the end of a line and a comment between marks
can hold line feeds; behind a comment the line starts at its last one. -/
def after (b : Bookkeeping) (offset : Nat) (l : Lexeme) : Bookkeeping :=
  match l.cls with
  | .newline => { b with line := b.line + 1, start := offset + l.text.length }
  | .blockComment =>
    let breaks := l.text.count '\n'
    if breaks == 0 then b
    else
      let last := l.text.length - 1 - l.text.reverse.idxOf '\n'
      { b with line := b.line + breaks, start := offset + last + 1 }
  | _ => { b with brackets := l.bracketsAfter b.brackets }

end Bookkeeping

/-- The tape of lexemes from an offset on, by what is kept up. -/
def scanFrom (file : Option String) : Bookkeeping → Nat → List Lexeme → Tape
  | b, offset, [] => ⟨[⟨.eof, b.line, offset - b.start + 1⟩], none⟩
  | b, offset, l :: rest =>
    match l.read file (b.place offset) b.brackets with
    | .nothing => scanFrom file (b.after offset l) (offset + l.text.length) rest
    | .fault fault => ⟨[], some fault⟩
    | .item item =>
      let tail := scanFrom file (b.after offset l) (offset + l.text.length) rest
      { tail with tokens := ⟨item, b.line, offset - b.start + 1⟩ :: tail.tokens }

/-- The tape of a script, by what is kept up. -/
def scan (file : Option String) (source : String) : Tape :=
  scanFrom file {} 0 (lexemes source.toList)

end TriggerEngine
