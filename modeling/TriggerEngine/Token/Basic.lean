/-
**Tokens.**

A script is read as a row of tokens: numbers, texts, names, words that belong to the language, and
marks.  The end of a line is a token as well, because it ends a statement, and so is the end of
the script.  Every token knows the line and column at which it starts.

A cursor that waits for a token waits for a kind.  A kind may also be a bare label that no token
has; such a kind is never met, and is named by its label in the complaint.

Main definitions:

* `Keyword`, `Symbol` — words and marks of the language;
* `Item` — what a token says, `Token` — an item with its position;
* `Kind` — what a cursor waits for, with `Item.kind` and `Kind.wanted`.
-/

import TriggerEngine.Number.Basic
import TriggerEngine.Text.Quoted

set_option autoImplicit false

namespace TriggerEngine

/-! ### Words and marks -/

/-- Words that belong to the language. -/
inductive Keyword where
  | trueWord | falseWord | nullWord
  | letWord | ifWord | elifWord | elseWord | whileWord | forWord | inWord | breakWord
  | continueWord | setWord | cooldownWord | toWord | callWord | executorWord | withWord
  | andWord | orWord | notWord | globalWord
  deriving DecidableEq, Repr

namespace Keyword

/-- All words of the language. -/
def all : List Keyword :=
  [.trueWord, .falseWord, .nullWord, .letWord, .ifWord, .elifWord, .elseWord, .whileWord,
    .forWord, .inWord, .breakWord, .continueWord, .setWord, .cooldownWord, .toWord, .callWord,
    .executorWord, .withWord, .andWord, .orWord, .notWord, .globalWord]

/-- How a word is written. -/
def text : Keyword → String
  | .trueWord => "true"
  | .falseWord => "false"
  | .nullWord => "null"
  | .letWord => "let"
  | .ifWord => "if"
  | .elifWord => "elif"
  | .elseWord => "else"
  | .whileWord => "while"
  | .forWord => "for"
  | .inWord => "in"
  | .breakWord => "break"
  | .continueWord => "continue"
  | .setWord => "set"
  | .cooldownWord => "cooldown"
  | .toWord => "to"
  | .callWord => "call"
  | .executorWord => "executor"
  | .withWord => "with"
  | .andWord => "and"
  | .orWord => "or"
  | .notWord => "not"
  | .globalWord => "global"

/-- The word that is written so, if there is one. -/
def ofText? (s : String) : Option Keyword :=
  all.find? fun k => k.text == s

theorem mem_all (k : Keyword) : k ∈ all := by
  cases k <;> decide

end Keyword

/-- Marks of the language. -/
inductive Symbol where
  | hash | at | dollar
  | eq | ne | ge | le | gt | lt
  | assign
  | lbrace | rbrace | lparen | rparen | lbracket | rbracket | comma | range | dot | semi
  | plus | minus | mul | div | mod
  deriving DecidableEq, Repr

namespace Symbol

/-- All marks, a longer one before those that it starts with. -/
def all : List Symbol :=
  [.hash, .at, .dollar, .eq, .ne, .ge, .le, .gt, .lt, .assign, .lbrace, .rbrace, .lparen, .rparen,
    .lbracket, .rbracket, .comma, .range, .dot, .semi, .plus, .minus, .mul, .div, .mod]

/-- How a mark is written. -/
def text : Symbol → String
  | .hash => "#"
  | .at => "@"
  | .dollar => "$"
  | .eq => "=="
  | .ne => "!="
  | .ge => ">="
  | .le => "<="
  | .gt => ">"
  | .lt => "<"
  | .assign => "="
  | .lbrace => "\x7b"
  | .rbrace => "\x7d"
  | .lparen => "("
  | .rparen => ")"
  | .lbracket => "["
  | .rbracket => "]"
  | .comma => ","
  | .range => ".."
  | .dot => "."
  | .semi => ";"
  | .plus => "+"
  | .minus => "-"
  | .mul => "*"
  | .div => "/"
  | .mod => "%"

/-- The label of a mark. -/
def label : Symbol → String
  | .hash => "HASH"
  | .at => "AT"
  | .dollar => "DOLLAR"
  | .eq => "EQ"
  | .ne => "NE"
  | .ge => "GE"
  | .le => "LE"
  | .gt => "GT"
  | .lt => "LT"
  | .assign => "ASSIGN"
  | .lbrace => "LBRACE"
  | .rbrace => "RBRACE"
  | .lparen => "LPAREN"
  | .rparen => "RPAREN"
  | .lbracket => "LBRACKET"
  | .rbracket => "RBRACKET"
  | .comma => "COMMA"
  | .range => "RANGE"
  | .dot => "DOT"
  | .semi => "SEMI"
  | .plus => "PLUS"
  | .minus => "MINUS"
  | .mul => "MUL"
  | .div => "DIV"
  | .mod => "MOD"

theorem mem_all (s : Symbol) : s ∈ all := by
  cases s <;> decide

end Symbol

/-! ### Kinds -/

/-- What a cursor may wait for. -/
inductive Kind where
  | number | string | ident
  | keyword (k : Keyword)
  | symbol (s : Symbol)
  | newline | eof
  /-- A label that no token has. -/
  | foreign (label : String)
  deriving DecidableEq, Repr

namespace Kind

/-- The label of a kind. -/
def label : Kind → String
  | .number => "NUMBER"
  | .string => "STRING"
  | .ident => "ID"
  | .keyword k => k.text.map Char.toUpper
  | .symbol s => s.label
  | .newline => "NEWLINE"
  | .eof => "EOF"
  | .foreign label => label

/-- All kinds that tokens have. -/
def all : List Kind :=
  [.number, .string, .ident, .newline, .eof] ++ Keyword.all.map .keyword ++
    Symbol.all.map .symbol

/-- The kind with a label. -/
def ofLabel (label : String) : Kind :=
  (all.find? fun kind => kind.label == label).getD (.foreign label)

/-- How a kind is named where a token of it is missing. -/
def wanted : Kind → String
  | .number => "a number"
  | .string => "a string"
  | .ident => "an identifier"
  | .keyword k => "'" ++ k.text ++ "'"
  | .symbol s => "'" ++ s.text ++ "'"
  | .newline => "'NEWLINE'"
  | .eof => "'EOF'"
  | .foreign "OPEN_COMMENT" => "'/*'"
  | .foreign label => "'" ++ label ++ "'"

end Kind

/-! ### Tokens -/

/-- What a token says. -/
inductive Item where
  /-- A number. -/
  | number (n : Number)
  /-- A text, without quotes and with its escapes resolved. -/
  | string (s : String)
  /-- A name. -/
  | ident (name : String)
  /-- A word of the language. -/
  | keyword (k : Keyword)
  /-- A mark. -/
  | symbol (s : Symbol)
  /-- The end of a line. -/
  | newline
  /-- The end of the script. -/
  | eof

namespace Item

/-- The kind of an item. -/
def kind : Item → Kind
  | .number _ => .number
  | .string _ => .string
  | .ident _ => .ident
  | .keyword k => .keyword k
  | .symbol s => .symbol s
  | .newline => .newline
  | .eof => .eof

/-- The name an item can serve as after a sigil or a dot; words of the language can. -/
def name? : Item → Option String
  | .ident name => some name
  | .keyword k => some k.text
  | _ => none

/-- How an item is named where it is not expected. -/
def describe : Item → String
  | .number (.int n) => "'" ++ Number.intText n ++ "'"
  | .number (.float x) => "'" ++ Number.floatText x ++ "'"
  | .string s => "string " ++ Text.quote s
  | .ident name => "'" ++ name ++ "'"
  | .keyword k => "'" ++ k.text ++ "'"
  | .symbol s => "'" ++ s.text ++ "'"
  | .newline => "end of line"
  | .eof => "end of input"

/-- Whether an item is of a kind. -/
def is (item : Item) (kind : Kind) : Bool :=
  item.kind == kind

end Item

/-- An item at a position. -/
structure Token where
  /-- What the token says. -/
  item : Item
  /-- The line of its first character, counted from one. -/
  line : Nat
  /-- The column of its first character, counted from one. -/
  column : Nat

namespace Token

/-- The kind of a token. -/
def kind (token : Token) : Kind :=
  token.item.kind

/-- Whether a token is of a kind. -/
def is (token : Token) (kind : Kind) : Bool :=
  token.item.is kind

/-- How the value of a token is written for inspection. -/
def valueText (token : Token) : String :=
  match token.item with
  | .number (.int n) => Number.intText n
  | .number (.float x) => Number.floatText x
  | .string s => Text.quote s
  | .ident name => Text.quote name
  | .keyword k => Text.quote k.text
  | .symbol s => Text.quote s.text
  | .newline => Text.quote "\n"
  | .eof => "None"

/-- A token written for inspection. -/
def inspect (token : Token) : String :=
  "Token(" ++ token.kind.label ++ ", " ++ token.valueText ++ ", line=" ++ toString token.line ++
    ", column=" ++ toString token.column ++ ")"

end Token

end TriggerEngine
