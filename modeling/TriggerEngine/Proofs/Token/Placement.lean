/-
**Where tokens stand.**

The lexemes that are matched while a script is read, up to the first one without meaning, lie one
behind the other from its start, so that no character is passed over.  A token stands where its
lexeme starts, and the place is counted off the script itself: the line by the line feeds in front,
the column from the start of the line.

The end of a line leaves a token unless it lies inside a comment between marks, where it is a part
of the comment, or inside parentheses or brackets.

Main definitions:

* `lineStart`, `placeAt` — the start of a line, and the place of an offset;
* `matched` — the lexemes up to the first one without meaning;
* `openBrackets` — the running count of brackets behind lexemes;
* `Tape.IsPlaced` — a tape that leaves out nothing and has everything at its place.

Main results:

* `placeAt_append` — the place of an offset is the place behind the characters in front of it;
* `placeAt_injective` — no two offsets have the same place;
* `mem_tapeFrom_iff`, `upToBroken_of_fault` — the tokens and the fault of a tape;
* `scan_eq_tape` — **keeping up where the line starts gives the same tape**;
* `tape_isPlaced` — **every tape of a script is placed**.
-/

import TriggerEngine.Proofs.Syntax.Agreement
import TriggerEngine.Proofs.Token.Spelling

set_option autoImplicit false

namespace TriggerEngine

open Text

/-! ### Places by offset -/

/-- The offset just behind the last line feed in front of an offset, or zero. -/
def lineStart (source : List Char) : Nat → Nat
  | 0 => 0
  | offset + 1 => if source[offset]? = some '\n' then offset + 1 else lineStart source offset

/-- The place of an offset: lines are counted by the line feeds in front, columns from the start of
the line, both from one. -/
def placeAt (source : List Char) (offset : Nat) : Position :=
  ⟨1 + (source.take offset).count '\n', offset - lineStart source offset + 1⟩

theorem lineStart_le (source : List Char) (offset : Nat) : lineStart source offset ≤ offset := by
  induction offset with
  | zero => exact Nat.le_refl _
  | succ offset ih =>
      rw [lineStart]
      split <;> omega

theorem placeAt_succ {source : List Char} {offset : Nat} {c : Char}
    (h : source[offset]? = some c) :
    placeAt source (offset + 1) = (placeAt source offset).step c := by
  have hle := lineStart_le source offset
  have hcount : (source.take (offset + 1)).count '\n' =
      (source.take offset).count '\n' + if c = '\n' then 1 else 0 := by
    rw [List.take_add_one, h, List.count_append]
    simp [List.count_singleton]
  unfold placeAt Position.step
  rw [hcount, lineStart, h]
  by_cases hc : c = '\n'
  · simp [hc, Nat.add_assoc]
  · simp [hc]
    omega

theorem placeAt_append (before behind : List Char) :
    placeAt (before ++ behind) before.length = Position.start.past before := by
  -- from the end, since one more character in front is one step further
  induction before using List.reverseRecOn generalizing behind with
  | nil => rfl
  | append_singleton before c ih =>
      have hget : (before ++ [c] ++ behind)[before.length]? = some c := by simp
      rw [List.length_append, List.length_singleton, placeAt_succ hget, Position.past_append,
        List.append_assoc, ih]
      rfl

theorem placeAt_before_succ (source : List Char) (offset : Nat) :
    (placeAt source offset).Before (placeAt source (offset + 1)) := by
  cases hget : source[offset]? with
  | some c =>
      rw [placeAt_succ hget]
      exact Position.before_step _ c
  | none =>
      have hle := lineStart_le source offset
      have hlen := List.getElem?_eq_none_iff.1 hget
      refine .inr ⟨?_, ?_⟩
      · simp [placeAt, List.take_of_length_le hlen, List.take_of_length_le (Nat.le_succ_of_le hlen)]
      · simp [placeAt, lineStart, hget]
        omega

theorem placeAt_before {source : List Char} {offset other : Nat} (h : offset < other) :
    (placeAt source offset).Before (placeAt source other) := by
  induction h with
  | refl => exact placeAt_before_succ source offset
  | step _ ih => exact ih.trans (placeAt_before_succ source _)

theorem placeAt_injective (source : List Char) : Function.Injective (placeAt source) := by
  have hirrefl : ∀ p : Position, ¬p.Before p := fun p h => by
    unfold Position.Before at h
    omega
  intro offset other heq
  rcases Nat.lt_trichotomy offset other with h | h | h
  · exact absurd (heq ▸ placeAt_before h) (hirrefl _)
  · exact h
  · exact absurd (heq ▸ placeAt_before h) (hirrefl _)

/-! ### The lexemes that are matched -/

/-- Whether a lexeme has no meaning: it is bad, or a whole number with too many digits. -/
def Lexeme.isBroken (l : Lexeme) : Bool :=
  l.cls.isBad || (l.cls == .whole && decide (Number.maxDigits < l.text.length))

/-- Lexemes up to the first one without meaning, that one included. -/
def upToBroken : List Lexeme → List Lexeme
  | [] => []
  | l :: ls => if l.isBroken then [l] else l :: upToBroken ls

/-- The lexemes that are matched while a script is read. -/
def matched (source : List Char) : List Lexeme :=
  upToBroken (lexemes source)

theorem Lexeme.isBroken_iff {file : Option String} {p : Position} {brackets : Nat} {l : Lexeme} :
    l.isBroken = true ↔ ∃ fault, l.read file p brackets = .fault fault := by
  cases hcls : l.cls with
  | whole =>
      by_cases hlen : Number.maxDigits < l.text.length
      · simp [isBroken, LexemeClass.isBad, read, readWhole, hcls, hlen, Nat.not_le_of_lt hlen]
      · simp [isBroken, LexemeClass.isBad, read, readWhole, hcls, hlen, Nat.le_of_not_lt hlen]
  | newline =>
      by_cases hzero : brackets = 0 <;> simp [isBroken, LexemeClass.isBad, read, hcls, hzero]
  | _ => simp [isBroken, LexemeClass.isBad, read, hcls]

theorem upToBroken_isPrefix (ls : List Lexeme) : upToBroken ls <+: ls := by
  induction ls with
  | nil => exact List.prefix_rfl
  | cons l ls ih =>
      rw [upToBroken]
      split
      · exact ⟨ls, rfl⟩
      · exact List.cons_prefix_cons.2 ⟨rfl, ih⟩

/-! ### Brackets -/

/-- How many brackets are open behind a lexeme, by its characters. -/
def bracketsBy (brackets : Nat) (l : Lexeme) : Nat :=
  if l.text = ['('] ∨ l.text = ['['] then brackets + 1
  else if l.text = [')'] ∨ l.text = [']'] then brackets - 1
  else brackets

/-- How many brackets are open behind a row of lexemes. -/
def openBrackets (ls : List Lexeme) : Nat :=
  ls.foldl bracketsBy 0

theorem Spelled.eq_symbol {cls : LexemeClass} {s : Symbol} (h : Spelled cls s.text.toList) :
    cls = .symbol s := by
  generalize htext : s.text.toList = text at h
  cases h with
  | symbol s' =>
      have hs := symbolAt?_append (s := s) [] rfl
      rw [htext, symbolAt?_append _ rfl] at hs
      exact congrArg _ (Option.some.inj hs)
  | keyword k =>
      obtain ⟨c, word, hk, hc, -⟩ := k.name
      simp [(Symbol.first (htext.trans hk)).2.2.1] at hc
  | stray _ hnot => exact absurd htext (hnot s)
  | blockComment | openComment | lineComment =>
      obtain ⟨-, -, -, -, -, hslash⟩ := Symbol.first htext
      exact absurd (hslash rfl).2 (List.cons_ne_nil _ _)
  | whole hc | decimal hc =>
      simp [(Symbol.first htext).1] at hc
  | string hmark | openString hmark =>
      have hquote := (Symbol.first htext).2.1
      rcases hmark with rfl | rfl <;> simp at hquote
  | ident hc => simp [(Symbol.first htext).2.2.1] at hc
  | newline => exact absurd (Symbol.first htext).2.2.2.1 (by decide)
  | blank hc => simp [(Symbol.first htext).2.2.2.2.1] at hc

theorem Spelled.bracketsAfter {l : Lexeme} (h : Spelled l.cls l.text) (brackets : Nat) :
    l.bracketsAfter brackets = bracketsBy brackets l := by
  by_cases hsymbol : ∃ s, l.cls = .symbol s
  · obtain ⟨s, hs⟩ := hsymbol
    obtain ⟨cls, text⟩ := l
    obtain rfl : cls = .symbol s := hs
    cases h
    cases s <;> rfl
  · -- any other lexeme is not written like a bracket
    have hne : ∀ s : Symbol, l.text ≠ s.text.toList := by
      rintro s heq
      rw [heq] at h
      exact hsymbol ⟨s, h.eq_symbol⟩
    have hby : bracketsBy brackets l = brackets := by
      rw [bracketsBy, if_neg, if_neg]
      · exact not_or.2 ⟨hne .rparen, hne .rbracket⟩
      · exact not_or.2 ⟨hne .lparen, hne .lbracket⟩
    rw [hby]
    unfold Lexeme.bracketsAfter
    cases hcls : l.cls with
    | symbol s => exact absurd ⟨s, hcls⟩ hsymbol
    | _ => rfl

theorem foldl_bracketsAfter {ls : List Lexeme} (h : ∀ l ∈ ls, Spelled l.cls l.text)
    (brackets : Nat) : ls.foldl Lexeme.bracketsAfter brackets = ls.foldl bracketsBy brackets := by
  induction ls generalizing brackets with
  | nil => rfl
  | cons l ls ih =>
      obtain ⟨hl, hls⟩ := List.forall_mem_cons.1 h
      rw [List.foldl_cons, List.foldl_cons, hl.bracketsAfter, ih hls]

/-! ### The tokens and the fault of a tape -/

theorem tapeFrom_cons_broken (file : Option String) (p : Position) (brackets : Nat) {l : Lexeme}
    (ls : List Lexeme) (h : l.isBroken = true) :
    ∃ fault, l.read file p brackets = .fault fault ∧
      tapeFrom file p brackets (l :: ls) = ⟨[], some fault⟩ := by
  obtain ⟨fault, hread⟩ := Lexeme.isBroken_iff.1 h
  exact ⟨fault, hread, by simp only [tapeFrom, hread]⟩

theorem tapeFrom_cons (file : Option String) (p : Position) (brackets : Nat) {l : Lexeme}
    (ls : List Lexeme) (h : l.isBroken = false) :
    let tail := tapeFrom file (p.past l.text) (l.bracketsAfter brackets) ls
    (l.read file p brackets = .nothing ∧ tapeFrom file p brackets (l :: ls) = tail) ∨
      ∃ item, l.read file p brackets = .item item ∧
        tapeFrom file p brackets (l :: ls) = ⟨⟨item, p.line, p.column⟩ :: tail.tokens, tail.fault⟩ := by
  cases hread : l.read file p brackets with
  | nothing => exact .inl ⟨rfl, by simp only [tapeFrom, hread]⟩
  | item item => exact .inr ⟨item, rfl, by simp only [tapeFrom, hread]⟩
  | fault fault => simp [Lexeme.isBroken_iff.2 ⟨fault, hread⟩] at h

theorem exists_split_cons {l : Lexeme} {ls : List Lexeme} {P : List Lexeme → Lexeme → Prop} :
    (∃ done m ahead, l :: ls = done ++ m :: ahead ∧ P done m) ↔
      P [] l ∨ ∃ done m ahead, ls = done ++ m :: ahead ∧ P (l :: done) m := by
  constructor
  · rintro ⟨done, m, ahead, hsplit, hP⟩
    cases done with
    | nil =>
        obtain ⟨rfl, rfl⟩ := List.cons.inj hsplit
        exact .inl hP
    | cons d done =>
        obtain ⟨rfl, hrest⟩ := List.cons.inj hsplit
        exact .inr ⟨done, m, ahead, hrest, hP⟩
  · rintro (hP | ⟨done, m, ahead, rfl, hP⟩)
    · exact ⟨[], l, ls, rfl, hP⟩
    · exact ⟨l :: done, m, ahead, rfl, hP⟩

theorem mem_tapeFrom_iff {file : Option String} {p : Position} {brackets : Nat} {ls : List Lexeme}
    {item : Item} {place : Position} :
    ⟨item, place.line, place.column⟩ ∈ (tapeFrom file p brackets ls).tokens ↔
      (∃ done l ahead, upToBroken ls = done ++ l :: ahead ∧ place = p.past (textOf done) ∧
        l.read file place (done.foldl Lexeme.bracketsAfter brackets) = .item item) ∨
      (item = .eof ∧ place = p.past (textOf ls) ∧ (tapeFrom file p brackets ls).fault = none) := by
  induction ls generalizing p brackets with
  | nil =>
      obtain ⟨line, column⟩ := place
      obtain ⟨pline, pcolumn⟩ := p
      simp [tapeFrom, upToBroken]
  | cons l ls ih =>
      cases hok : l.isBroken with
      | true =>
          -- a broken lexeme has no item, and none is read behind it
          obtain ⟨fault, hread, htape⟩ := tapeFrom_cons_broken file p brackets ls hok
          rw [htape, upToBroken, hok, if_pos rfl, exists_split_cons]
          have hnot : ∀ place, l.read file place brackets ≠ .item item := by
            intro place hitem
            obtain ⟨fault, hfault⟩ := Lexeme.isBroken_iff.1 hok
            rw [hitem] at hfault
            cases hfault
          simp [hnot]
      | false =>
          rw [upToBroken, hok, if_neg Bool.false_ne_true, exists_split_cons]
          simp only [textOf_cons, textOf_nil, Position.past_append, Position.past_nil,
            List.foldl_cons, List.foldl_nil]
          rcases tapeFrom_cons file p brackets ls hok with
            ⟨hread, htape⟩ | ⟨own, hread, htape⟩
          · rw [htape, ih]
            have hnot : ¬(place = p ∧ l.read file place brackets = .item item) := by
              rintro ⟨rfl, hitem⟩
              rw [hitem] at hread
              cases hread
            simp only [hnot, false_or]
          · rw [htape, List.mem_cons, ih]
            have hfirst : (⟨item, place.line, place.column⟩ : Token) = ⟨own, p.line, p.column⟩ ↔
                place = p ∧ l.read file place brackets = .item item := by
              constructor
              · intro heq
                obtain ⟨rfl, hline, hcolumn⟩ := Token.mk.inj heq
                obtain rfl : place = p := by
                  obtain ⟨line, column⟩ := place
                  subst hline hcolumn
                  rfl
                exact ⟨rfl, hread⟩
              · rintro ⟨rfl, hitem⟩
                rw [hitem] at hread
                cases hread
                rfl
            rw [hfirst, or_assoc]

theorem upToBroken_of_fault {file : Option String} {p : Position} {brackets : Nat}
    {ls : List Lexeme} {fault : Fault} (h : (tapeFrom file p brackets ls).fault = some fault) :
    ∃ done l, upToBroken ls = done ++ [l] ∧
      l.read file (p.past (textOf done)) (done.foldl Lexeme.bracketsAfter brackets) =
        .fault fault := by
  induction ls generalizing p brackets with
  | nil => cases h
  | cons l ls ih =>
      cases hok : l.isBroken with
      | true =>
          obtain ⟨met, hread, htape⟩ := tapeFrom_cons_broken file p brackets ls hok
          rw [htape] at h
          obtain rfl := Option.some.inj h
          exact ⟨[], l, by rw [upToBroken, hok]; rfl, hread⟩
      | false =>
          have hrest : (tapeFrom file (p.past l.text) (l.bracketsAfter brackets) ls).fault =
              some fault := by
            rcases tapeFrom_cons file p brackets ls hok with
              ⟨-, htape⟩ | ⟨own, -, htape⟩
            · rwa [htape] at h
            · rwa [htape] at h
          obtain ⟨done, m, hup, hread⟩ := ih hrest
          exact ⟨l :: done, m, by rw [upToBroken, hok, hup]; rfl, by simpa using hread⟩

theorem upToBroken_of_ended {file : Option String} {p : Position} {brackets : Nat}
    {ls : List Lexeme} (h : (tapeFrom file p brackets ls).fault = none) : upToBroken ls = ls := by
  induction ls generalizing p brackets with
  | nil => rfl
  | cons l ls ih =>
      cases hok : l.isBroken with
      | true =>
          obtain ⟨met, -, htape⟩ := tapeFrom_cons_broken file p brackets ls hok
          rw [htape] at h
          cases h
      | false =>
          rw [upToBroken, hok, if_neg Bool.false_ne_true]
          rcases tapeFrom_cons file p brackets ls hok with
            ⟨-, htape⟩ | ⟨own, -, htape⟩
          · rw [ih (htape ▸ h)]
          · rw [htape] at h
            rw [ih h]

theorem tapeFrom_pairwise {file : Option String} {p : Position} {brackets : Nat}
    {ls : List Lexeme} (h : ∀ l ∈ ls, l.text ≠ []) :
    (tapeFrom file p brackets ls).tokens.Pairwise fun t u =>
      Position.Before ⟨t.line, t.column⟩ ⟨u.line, u.column⟩ := by
  induction ls generalizing p brackets with
  | nil => exact List.pairwise_singleton _ _
  | cons l ls ih =>
      obtain ⟨hl, hls⟩ := List.forall_mem_cons.1 h
      cases hok : l.isBroken with
      | true =>
          obtain ⟨met, -, htape⟩ := tapeFrom_cons_broken file p brackets ls hok
          rw [htape]
          exact .nil
      | false =>
          rcases tapeFrom_cons file p brackets ls hok with
            ⟨-, htape⟩ | ⟨own, -, htape⟩
          · rw [htape]
            exact ih hls
          · rw [htape]
            refine List.pairwise_cons.2 ⟨?_, ih hls⟩
            intro token htoken
            -- the others stand behind the characters of this one
            obtain ⟨cs, hcs⟩ : ∃ cs, (⟨token.line, token.column⟩ : Position) =
                (p.past l.text).past cs := by
              rcases place_of_mem_tapeFrom htoken with ⟨done, -, -, -, hplace⟩ | ⟨hplace, -⟩
              · exact ⟨_, hplace⟩
              · exact ⟨_, hplace⟩
            rw [hcs, ← Position.past_append]
            exact Position.before_past p (by simp [hl])

/-! ### Lines that are kept up -/

namespace Bookkeeping

variable {b : Bookkeeping} {offset : Nat} {l : Lexeme}

theorem place_after (hstart : b.start ≤ offset) (hspelled : Spelled l.cls l.text) :
    (b.after offset l).start ≤ offset + l.text.length ∧
      (b.after offset l).place (offset + l.text.length) = (b.place offset).past l.text ∧
      (b.after offset l).brackets = l.bracketsAfter b.brackets := by
  by_cases hfeed : '\n' ∈ l.text
  · rcases hspelled.of_newline_mem hfeed with hcls | ⟨hcls, htext⟩
    · have hlast : l.text.reverse.idxOf '\n' < l.text.length := by
        rw [← List.length_reverse]
        exact List.idxOf_lt_length_of_mem (List.mem_reverse.2 hfeed)
      have hcount : l.text.count '\n' ≠ 0 := fun h => List.count_eq_zero.1 h hfeed
      rw [Position.past_of_feed _ hfeed]
      simp only [after, Lexeme.bracketsAfter, hcls, place, beq_iff_eq, hcount, if_false, and_true,
        Position.mk.injEq, true_and]
      omega
    · rw [htext]
      simp [after, Lexeme.bracketsAfter, hcls, htext, place, Position.past, Position.step]
  · rw [Position.past_of_feedless _ hfeed]
    have hafter : b.after offset l = { b with brackets := l.bracketsAfter b.brackets } := by
      unfold after
      cases hcls : l.cls with
      | newline =>
          obtain ⟨cls, text⟩ := l
          cases hcls
          cases hspelled
          simp at hfeed
      | blockComment => simp [List.count_eq_zero.2 hfeed, Lexeme.bracketsAfter, hcls]
      | _ => rfl
    rw [hafter]
    simp only [place, and_true, Position.mk.injEq, true_and]
    omega

end Bookkeeping

theorem scanFrom_eq (file : Option String) {ls : List Lexeme}
    (hspelled : ∀ l ∈ ls, Spelled l.cls l.text) {b : Bookkeeping} {offset : Nat}
    (hstart : b.start ≤ offset) :
    scanFrom file b offset ls = tapeFrom file (b.place offset) b.brackets ls := by
  induction ls generalizing b offset with
  | nil => rfl
  | cons l ls ih =>
      obtain ⟨hl, hls⟩ := List.forall_mem_cons.1 hspelled
      obtain ⟨hstart', hplace, hbrackets⟩ := Bookkeeping.place_after hstart hl
      rw [scanFrom, tapeFrom, ih hls hstart', hplace, hbrackets]
      rfl

/-- **The tape of a script is what is read by keeping up where the line starts.** -/
theorem scan_eq_tape (file : Option String) (source : String) :
    scan file source = tape file source :=
  scanFrom_eq file (fun l hl => (tiles_lexemes _).spelled l hl) (Nat.le_refl 0)

/-! ### Placed tapes -/

/-- A tape that leaves out nothing of a script and has everything at its place. -/
structure Tape.IsPlaced (file : Option String) (source : List Char) (t : Tape) : Prop where
  /-- The lexemes that are matched lie one behind the other from the start of the script. -/
  tiles : textOf (matched source) <+: source ∧ ∀ l ∈ matched source, l.text ≠ []
  /-- They are the whole script if the tape does not break off. -/
  whole : t.fault = none → textOf (matched source) = source
  /-- There is a token for every lexeme that has one, at the place of the offset where the lexeme
  starts, and one for the end of the script unless the tape breaks off. -/
  tokens : ∀ (item : Item) (place : Position), ⟨item, place.line, place.column⟩ ∈ t.tokens ↔
    (∃ done l ahead, matched source = done ++ l :: ahead ∧
      place = placeAt source (textOf done).length ∧
      l.read file place (openBrackets done) = .item item) ∨
    (item = .eof ∧ place = placeAt source source.length ∧ t.fault = none)
  /-- There is one token for each of them, in their order. -/
  order : t.tokens.Pairwise fun t u => Position.Before ⟨t.line, t.column⟩ ⟨u.line, u.column⟩
  /-- The tape breaks off at the last lexeme that is matched, and a fault with a place names the
  place of the offset where that lexeme starts. -/
  faults : ∀ fault, t.fault = some fault → ∃ done l, matched source = done ++ [l] ∧
    l.read file (placeAt source (textOf done).length) (openBrackets done) = .fault fault ∧
    ∀ cause place, fault = .lex cause place →
      (⟨place.line, place.column⟩ : Position) = placeAt source (textOf done).length
  /-- A line feed leaves a token if it is outside comments between marks and no bracket is open. -/
  newlines : ∀ offset : Nat,
    ⟨.newline, (placeAt source offset).line, (placeAt source offset).column⟩ ∈ t.tokens ↔
      ∃ done l ahead i, matched source = done ++ l :: ahead ∧
        offset = (textOf done).length + i ∧ l.text[i]? = some '\n' ∧
        l.cls ≠ .blockComment ∧ openBrackets done = 0

theorem Lexeme.read_newline_iff {file : Option String} {p : Position} {brackets : Nat}
    {l : Lexeme} : l.read file p brackets = .item .newline ↔ l.cls = .newline ∧ brackets = 0 := by
  cases hcls : l.cls with
  | whole =>
      by_cases hlen : l.text.length ≤ Number.maxDigits <;> simp [read, readWhole, hcls, hlen]
  | newline => by_cases hzero : brackets = 0 <;> simp [read, hcls, hzero]
  | _ => simp [read, hcls]

section Script

variable {source : List Char}

theorem spelled_of_mem_matched : ∀ l ∈ matched source, Spelled l.cls l.text :=
  fun l hl => (tiles_lexemes source).spelled l ((upToBroken_isPrefix _).subset hl)

theorem textOf_matched_isPrefix (source : List Char) : textOf (matched source) <+: source := by
  obtain ⟨rest, hrest⟩ := upToBroken_isPrefix (lexemes source)
  refine List.IsPrefix.trans ⟨textOf rest, ?_⟩ (tiles_lexemes source).text.1
  rw [matched, ← textOf_append, hrest]

theorem past_of_matched {done ahead : List Lexeme} (h : matched source = done ++ ahead) :
    Position.start.past (textOf done) = placeAt source (textOf done).length := by
  obtain ⟨rest, hrest⟩ := textOf_matched_isPrefix source
  rw [h, textOf_append, List.append_assoc] at hrest
  rw [← hrest, placeAt_append]

theorem brackets_of_matched {done ahead : List Lexeme} (h : matched source = done ++ ahead) :
    done.foldl Lexeme.bracketsAfter 0 = openBrackets done :=
  foldl_bracketsAfter (fun l hl => spelled_of_mem_matched l (h ▸ List.mem_append_left _ hl)) 0

end Script

section Tape

variable {file : Option String} {source : String}

theorem mem_tape_iff {item : Item} {place : Position} :
    ⟨item, place.line, place.column⟩ ∈ (tape file source).tokens ↔
      (∃ done l ahead, matched source.toList = done ++ l :: ahead ∧
        place = placeAt source.toList (textOf done).length ∧
        l.read file place (openBrackets done) = .item item) ∨
      (item = .eof ∧ place = placeAt source.toList source.toList.length ∧
        (tape file source).fault = none) := by
  rw [tape, mem_tapeFrom_iff]
  refine or_congr ?_ ?_
  · refine exists_congr fun done => exists_congr fun l => exists_congr fun ahead => ?_
    refine and_congr_right fun hsplit => ?_
    rw [past_of_matched hsplit, brackets_of_matched hsplit]
  · refine and_congr_right fun _ => and_congr_left fun hfault => ?_
    have hplace := placeAt_append source.toList []
    rw [List.append_nil] at hplace
    rw [textOf_of_tape hfault, hplace]

theorem newline_mem_tape_iff (offset : Nat) :
    ⟨.newline, (placeAt source.toList offset).line, (placeAt source.toList offset).column⟩ ∈
        (tape file source).tokens ↔
      ∃ done l ahead i, matched source.toList = done ++ l :: ahead ∧
        offset = (textOf done).length + i ∧ l.text[i]? = some '\n' ∧
        l.cls ≠ .blockComment ∧ openBrackets done = 0 := by
  rw [mem_tape_iff]
  constructor
  · rintro (⟨done, l, ahead, hsplit, hplace, hread⟩ | ⟨hitem, -, -⟩)
    · obtain rfl := placeAt_injective _ hplace
      obtain ⟨hcls, hzero⟩ := Lexeme.read_newline_iff.1 hread
      have hspelled := spelled_of_mem_matched l (by rw [hsplit]; simp)
      rw [hcls] at hspelled
      refine ⟨done, l, ahead, 0, hsplit, rfl, ?_, by rw [hcls]; simp, hzero⟩
      generalize l.text = text at hspelled
      cases hspelled
      rfl
    · cases hitem
  · rintro ⟨done, l, ahead, i, hsplit, rfl, hget, hcls, hzero⟩
    have hspelled := spelled_of_mem_matched l (by rw [hsplit]; simp)
    rcases hspelled.of_newline_mem (List.mem_of_getElem? hget) with hblock | ⟨hnewline, htext⟩
    · exact absurd hblock hcls
    · -- the line feed is all there is to its lexeme
      obtain rfl : i = 0 := by
        rw [htext] at hget
        have hlt := (List.getElem?_eq_some_iff.1 hget).1
        simpa using hlt
      exact .inl ⟨done, l, ahead, hsplit, rfl, Lexeme.read_newline_iff.2 ⟨hnewline, hzero⟩⟩

end Tape

/-- **Every tape of a script is placed**: no character is passed over, tokens and faults carry the
line and column at which their lexemes start, and the ends of lines outside comments and brackets
leave a token each. -/
theorem tape_isPlaced (file : Option String) (source : String) :
    (tape file source).IsPlaced file source.toList := by
  refine ⟨⟨textOf_matched_isPrefix _, fun l hl => (spelled_of_mem_matched l hl).ne_nil⟩, ?_,
    fun item place => mem_tape_iff, ?_, ?_, newline_mem_tape_iff⟩
  · intro hfault
    rw [matched, upToBroken_of_ended hfault, textOf_of_tape hfault]
  · exact tapeFrom_pairwise fun l hl => ((tiles_lexemes _).spelled l hl).ne_nil
  · intro fault hfault
    obtain ⟨done, l, hsplit, hread⟩ := upToBroken_of_fault hfault
    rw [past_of_matched hsplit, brackets_of_matched hsplit] at hread
    refine ⟨done, l, hsplit, hread, ?_⟩
    rintro cause place rfl
    rcases Lexeme.fault_of_read hread with ⟨cause', heq⟩ | ⟨-, -, heq⟩
    · cases heq
      rfl
    · cases heq

end TriggerEngine
