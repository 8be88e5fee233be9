/-
**Lexemes.**

A script falls into lexemes: comments, blanks, line ends and everything that becomes a token.
At each place the alternatives are tried in a fixed order, and as each of them needs at least one
character, the lexemes tile the script from its start.  The tiling stops after the first lexeme
that is bad: an open comment, an open text, or a character that starts nothing.

A word of the language counts as one only between characters that cannot be part of a word; glued
to a digit it is a name like any other.  So the class of a lexeme depends on one character before
it and one behind it.

Main definitions:

* `LexemeClass`, `Lexeme` — the classes, and a lexeme with its characters;
* `recognise` — the class and length of the lexeme at a place;
* `lexemes` — the tiling of a script.
-/

import TriggerEngine.Token.Basic
import TriggerEngine.Token.Literal
import TriggerEngine.Text.Digit
import TriggerEngine.Text.Word

set_option autoImplicit false

namespace TriggerEngine

open Text

/-- The classes of lexemes. -/
inductive LexemeClass where
  /-- A comment between two marks. -/
  | blockComment
  /-- The start of a comment that nothing ends. -/
  | openComment
  /-- A comment to the end of the line. -/
  | lineComment
  /-- A number with a point. -/
  | decimal
  /-- A whole number. -/
  | whole
  /-- A text. -/
  | string
  /-- A text that nothing ends. -/
  | openString
  /-- A word of the language. -/
  | keyword (k : Keyword)
  /-- A name. -/
  | ident
  /-- A mark. -/
  | symbol (s : Symbol)
  /-- The end of a line. -/
  | newline
  /-- Blanks. -/
  | blank
  /-- A character that starts nothing. -/
  | stray
  deriving DecidableEq, Repr

/-- Whether the tiling stops here. -/
def LexemeClass.isBad : LexemeClass → Bool
  | .openComment => true
  | .openString => true
  | .stray => true
  | _ => false

/-- A piece of a script. -/
structure Lexeme where
  /-- Its class. -/
  cls : LexemeClass
  /-- Its characters. -/
  text : List Char
  deriving DecidableEq, Repr

/-! ### Recognising one lexeme -/

/-- The length of a comment behind its opening mark, closing mark included. -/
def commentLength : List Char → Option Nat
  | '*' :: '/' :: _ => some 2
  | _ :: cs => (commentLength cs).map (· + 1)
  | [] => none

/-- A character that can start a name. -/
def startsName (c : Char) : Bool :=
  isAsciiWord c && !c.isDigit

/-- A blank that separates lexemes and is nothing else. -/
def isSpacing (c : Char) : Bool :=
  c == ' ' || c == '\t' || c == '\r'

/-- Whether a word may end at, or start behind, this neighbour. -/
def isBoundary (neighbour : Option Char) : Bool :=
  !neighbour.any isWord

/-- The mark at the start of a text: the first of `Symbol.all` that fits. -/
def symbolAt? (cs : List Char) : Option Symbol :=
  Symbol.all.find? fun s => s.text.toList.isPrefixOf cs

/-- The class of a word with these neighbours. -/
def wordClass (before : Option Char) (word : List Char) (after : Option Char) : LexemeClass :=
  match Keyword.ofText? (String.ofList word) with
  | some k => if isBoundary before && isBoundary after then .keyword k else .ident
  | none => .ident

/-- The lexeme that starts with `c` and goes on with `cs`: its class, and how many characters of
`cs` belong to it.  `before` is the character before it. -/
def recognise (before : Option Char) (c : Char) (cs : List Char) : LexemeClass × Nat :=
  if c == '/' && cs.head? == some '*' then
    match commentLength (cs.drop 1) with
    | some n => (.blockComment, n + 1)
    | none => (.openComment, 1)
  else if c == '/' && cs.head? == some '/' then
    (.lineComment, (cs.takeWhile (· != '\n')).length)
  else if isDecimal c then
    let whole := (cs.takeWhile isDecimal).length
    let places := ((cs.drop (whole + 1)).takeWhile isDecimal).length
    if (cs.drop whole).head? == some '.' && places != 0 then (.decimal, whole + 1 + places)
    else (.whole, whole)
  else if c == '"' || c == '\'' then
    let body := Literal.bodyLength c cs
    if (cs.drop body).head? == some c then (.string, body + 1) else (.openString, body)
  else if startsName c then
    let tail := (cs.takeWhile isAsciiWord).length
    (wordClass before (c :: cs.take tail) (cs.drop tail).head?, tail)
  else if c == '\n' then (.newline, 0)
  else if isSpacing c then (.blank, (cs.takeWhile isSpacing).length)
  else
    match symbolAt? (c :: cs) with
    | some s => (.symbol s, s.text.length - 1)
    | none => (.stray, 0)

/-! ### The tiling -/

/-- The lexemes of a text, at most `fuel` of them. -/
def lexemesF : Nat → Option Char → List Char → List Lexeme
  | 0, _, _ => []
  | _ + 1, _, [] => []
  | fuel + 1, before, c :: cs =>
    let (cls, tail) := recognise before c cs
    let text := c :: cs.take tail
    if cls.isBad then [⟨cls, text⟩]
    else ⟨cls, text⟩ :: lexemesF fuel text.getLast? (cs.drop tail)

/-- The lexemes of a script, up to the first bad one. -/
def lexemes (source : List Char) : List Lexeme :=
  lexemesF source.length none source

end TriggerEngine
