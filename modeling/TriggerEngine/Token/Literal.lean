/-
**Text literals.**

A text stands between two quotes of one sort.  Inside, a backslash gives the character behind it
another meaning: four letters stand for characters that are hard to write, and any other character
stands for itself.  So every text can be written, by a backslash before each backslash, quote and
line feed.

Main definitions:

* `Literal.bodyLength` — how far a literal reaches;
* `Literal.unescape`, `Literal.decode` — the text that a literal writes.
-/

set_option autoImplicit false

namespace TriggerEngine.Literal

/-- How many characters belong to the body of a literal: up to its quote, the end of the line, or
the end of the script. -/
def bodyLength (mark : Char) : List Char → Nat
  | '\\' :: c :: cs => if c == '\n' then 0 else bodyLength mark cs + 2
  | c :: cs => if c == mark || c == '\\' || c == '\n' then 0 else bodyLength mark cs + 1
  | [] => 0

/-- What an escaped character stands for. -/
def escaped : Char → Char
  | 'n' => '\n'
  | 't' => '\t'
  | 'r' => '\r'
  | '0' => '\x00'
  | c => c

/-- Resolves escapes; a backslash before a line feed or at the end is itself. -/
def unescape : List Char → List Char
  | '\\' :: c :: cs => if c == '\n' then '\\' :: c :: unescape cs else escaped c :: unescape cs
  | c :: cs => c :: unescape cs
  | [] => []

/-- The text of a literal, quotes included. -/
def decode (literal : List Char) : List Char :=
  unescape (literal.drop 1).dropLast

end TriggerEngine.Literal
