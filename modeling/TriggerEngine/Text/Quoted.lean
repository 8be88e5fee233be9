/-
**Quoted text.**

Error messages, listings and the texts of mappings show a string between quotes: single ones,
unless the text has a single quote and no double one.  The quote in use, the backslash and the
characters that are not printable are written as escapes, so a quoted text is one line of
printable characters.

Main definitions:

* `Text.quoteMark` — the quote that surrounds a text;
* `Text.quoteChar` — how one character is written;
* `Text.quote` — a text with its quotes.
-/

import TriggerEngine.Text.Printable

set_option autoImplicit false

namespace TriggerEngine.Text

/-- The hexadecimal digits of `n`, at least `width` of them. -/
def hexDigits (width n : Nat) : List Char :=
  let digits := Nat.toDigits 16 n
  List.replicate (width - digits.length) '0' ++ digits

/-- The quote that surrounds a text: a single one if that needs no escape or a double one would
need one too. -/
def quoteMark (cs : List Char) : Char :=
  if cs.contains '\'' && !cs.contains '"' then '"' else '\''

/-- How a character is written between quotes `mark`. -/
def quoteChar (mark c : Char) : List Char :=
  if c == mark || c == '\\' then ['\\', c]
  else if c == '\n' then ['\\', 'n']
  else if c == '\r' then ['\\', 'r']
  else if c == '\t' then ['\\', 't']
  else if isPrintable c then [c]
  else if c.toNat < 0x100 then '\\' :: 'x' :: hexDigits 2 c.toNat
  else if c.toNat < 0x10000 then '\\' :: 'u' :: hexDigits 4 c.toNat
  else '\\' :: 'U' :: hexDigits 8 c.toNat

/-- A text between quotes, as characters. -/
def quoteChars (cs : List Char) : List Char :=
  let mark := quoteMark cs
  mark :: (cs.flatMap (quoteChar mark) ++ [mark])

/-- A text between quotes. -/
def quote (s : String) : String :=
  String.ofList (quoteChars s.toList)

end TriggerEngine.Text
