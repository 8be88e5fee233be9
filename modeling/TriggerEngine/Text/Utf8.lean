/-
**Reading files as text.**

A script file is a sequence of octets in UTF-8.  Reading it either gives its characters, with the
three customs of ending a line brought to one, or names the first octets that are no text: where
they stand and what is wrong with them.

Main definitions:

* `Text.Utf8.Flaw` — the three ways in which octets fail to be text, with their place;
* `Text.Utf8.decode` — the characters of a sequence of octets;
* `Text.Utf8.plainLines` — line ends as single line feeds.
-/

set_option autoImplicit false

namespace TriggerEngine.Text.Utf8

/-- What is wrong with an octet sequence. -/
inductive Reason where
  /-- No character starts with this octet. -/
  | start
  /-- A character breaks off before its last octet. -/
  | continuation
  /-- The file ends inside a character. -/
  | ending
  deriving DecidableEq, Repr

/-- How a reason is worded. -/
def Reason.text : Reason → String
  | .start => "invalid start byte"
  | .continuation => "invalid continuation byte"
  | .ending => "unexpected end of data"

/-- The first octets that are no text. -/
structure Flaw where
  /-- Offset of the first of them. -/
  offset : Nat
  /-- How many they are. -/
  width : Nat
  /-- The first octet. -/
  octet : Nat
  /-- What is wrong. -/
  reason : Reason
  deriving DecidableEq, Repr

/-- One step of decoding: a character and how many octets it took, or how many octets are wrong. -/
inductive Step where
  /-- A character made of `width` octets. -/
  | char (code width : Nat)
  /-- The first `width` octets are wrong. -/
  | flaw (width : Nat) (reason : Reason)

/-- Octets that continue a character. -/
def isTail (b : Nat) : Bool :=
  0x80 ≤ b && b ≤ 0xBF

/-- Which second octets may follow a first one of a longer character. -/
def isSecond (lead b : Nat) : Bool :=
  isTail b &&
    (if lead == 0xE0 then 0xA0 ≤ b
      else if lead == 0xED then b ≤ 0x9F
      else if lead == 0xF0 then 0x90 ≤ b
      else if lead == 0xF4 then b ≤ 0x8F
      else true)

/-- The character at the head of `lead :: rest`. -/
def step (lead : Nat) (rest : List Nat) : Step :=
  if lead < 0x80 then .char lead 1
  else if lead < 0xC2 then .flaw 1 .start
  else if lead < 0xE0 then
    match rest with
    | b :: _ => if isTail b then .char ((lead - 0xC0) * 64 + (b - 0x80)) 2
        else .flaw 1 .continuation
    | [] => .flaw 1 .ending
  else if lead < 0xF0 then
    match rest with
    | [] => .flaw 1 .ending
    | b :: more =>
      if !isSecond lead b then .flaw 1 .continuation
      else match more with
        | [] => .flaw 2 .ending
        | c :: _ =>
          if isTail c then .char (((lead - 0xE0) * 64 + (b - 0x80)) * 64 + (c - 0x80)) 3
          else .flaw 2 .continuation
  else if lead < 0xF5 then
    match rest with
    | [] => .flaw 1 .ending
    | b :: more =>
      if !isSecond lead b then .flaw 1 .continuation
      else match more with
        | [] => .flaw 2 .ending
        | c :: more' =>
          if !isTail c then .flaw 2 .continuation
          else match more' with
            | [] => .flaw 3 .ending
            | d :: _ =>
              if isTail d then
                .char ((((lead - 0xF0) * 64 + (b - 0x80)) * 64 + (c - 0x80)) * 64 + (d - 0x80)) 4
              else .flaw 3 .continuation
  else .flaw 1 .start

/-- Decodes the octets from `offset` on; `skip` octets still belong to the last character. -/
def decodeFrom (offset skip : Nat) : List Nat → Except Flaw (List Char)
  | [] => .ok []
  | lead :: rest =>
    match skip with
    | skip + 1 => decodeFrom (offset + 1) skip rest
    | 0 =>
      match step lead rest with
      | .flaw width reason => .error ⟨offset, width, lead, reason⟩
      | .char code width =>
        match decodeFrom (offset + 1) (width - 1) rest with
        | .ok cs => .ok (Char.ofNat code :: cs)
        | .error flaw => .error flaw

/-- The characters of a file, or its first flaw. -/
def decode (octets : List Nat) : Except Flaw (List Char) :=
  decodeFrom 0 0 octets

/-- A carriage return, alone or before a line feed, ends a line as a line feed does. -/
def plainLines : List Char → List Char
  | [] => []
  | '\r' :: '\n' :: cs => '\n' :: plainLines cs
  | c :: cs => (if c == '\r' then '\n' else c) :: plainLines cs

/-- The wording of a flaw. -/
def Flaw.message (flaw : Flaw) : String :=
  let hex := String.ofList (Nat.toDigits 16 flaw.octet)
  let place :=
    if flaw.width == 1 then
      "byte 0x" ++ hex ++ " in position " ++ toString flaw.offset
    else
      "bytes in position " ++ toString flaw.offset ++ "-" ++
        toString (flaw.offset + flaw.width - 1)
  "'utf-8' codec can't decode " ++ place ++ ": " ++ flaw.reason.text

end TriggerEngine.Text.Utf8
