/-
**Lexemes tile a script.**

Each lexeme is a piece of the script behind the lexemes before it, so the lexemes in front of a
place are the text in front of it, and the place where a token stands is counted off that text.  If
no lexeme is bad, they are the whole script.

A tape either ends with the end of the script, and then every lexeme has a meaning; or it breaks
off with a fault at the first lexeme that has none, and then no token of it is the end.

Main definitions:

* `Tiles` — lexemes recognised one behind the other;
* `IsMark` — the places where a lexeme starts, and the place behind the script.

Main results:

* `tiles_lexemes`, `Tiles.text` — the lexemes of a script tile it;
* `Position.past_start` — places are counted by line feeds and characters;
* `IsMark.within` — such a place lies in one of the lines of the script, or right behind it;
* `tapeFrom_ended`, `tapeFrom_broken` — the two ways in which a tape ends;
* `isMark_of_mem_tape`, `fault_of_tape` — where tokens and faults stand.
-/

import TriggerEngine.Proofs.Syntax.Reading
import TriggerEngine.Token.Tape

set_option autoImplicit false

namespace TriggerEngine

open Text

/-! ### Lexemes are pieces of the script -/

theorem commentLength_le {cs : List Char} {n : Nat} (h : commentLength cs = some n) :
    n ≤ cs.length := by
  fun_induction commentLength cs generalizing n with
  | case1 => simp_all; omega
  | case2 c cs _ ih =>
      obtain ⟨m, hm, rfl⟩ := Option.map_eq_some_iff.1 h
      simpa using ih hm
  | case3 => cases h

theorem Literal.bodyLength_le (mark : Char) (cs : List Char) :
    Literal.bodyLength mark cs ≤ cs.length := by
  fun_induction Literal.bodyLength mark cs <;> simp_all

theorem lt_of_head?_drop {cs : List Char} {n : Nat} {c : Char}
    (h : (cs.drop n).head? = some c) : n < cs.length := by
  rw [List.head?_drop] at h
  exact (List.getElem?_eq_some_iff.1 h).1

theorem length_le_of_symbolAt? {cs : List Char} {s : Symbol} (h : symbolAt? cs = some s) :
    s.text.length ≤ cs.length := by
  have hprefix := List.find?_some h
  rw [← String.length_toList]
  exact (List.isPrefixOf_iff_prefix.1 hprefix).length_le

theorem recognise_le (before : Option Char) (c : Char) (cs : List Char) :
    (recognise before c cs).2 ≤ cs.length := by
  unfold recognise
  split
  · -- a comment between marks: the second mark of two characters is in `cs`
    rename_i hopen
    have hpos : 0 < cs.length := by
      cases cs with
      | nil => simp at hopen
      | cons d cs => simp
    split
    · rename_i n hn
      have := commentLength_le hn
      simp at this
      simp
      omega
    · exact hpos
  · split
    · exact (List.takeWhile_prefix _).length_le
    · split
      · -- a number: the point is one of the characters, and the places are behind it
        have hwhole := (List.takeWhile_prefix isDecimal (l := cs)).length_le
        have hplaces := (List.takeWhile_prefix isDecimal
          (l := cs.drop ((cs.takeWhile isDecimal).length + 1))).length_le
        dsimp only
        split
        · rename_i hdot
          have hlt : (cs.takeWhile isDecimal).length < cs.length :=
            lt_of_head?_drop (c := '.') (by simpa using (Bool.and_eq_true_iff.1 hdot).1)
          rw [List.length_drop] at hplaces
          simp only
          omega
        · exact hwhole
      · split
        · have hbody := Literal.bodyLength_le c cs
          dsimp only
          split
          · rename_i hclosed
            exact lt_of_head?_drop (by simpa using hclosed)
          · exact hbody
        · split
          · exact (List.takeWhile_prefix _).length_le
          · split
            · exact Nat.zero_le _
            · split
              · exact (List.takeWhile_prefix _).length_le
              · split
                · rename_i s hs
                  have := length_le_of_symbolAt? hs
                  simp at this
                  simp only
                  omega
                · exact Nat.zero_le _

/-- Lexemes that are recognised one behind the other, up to the end of the text or to a bad one.
`before` is the character in front of the text. -/
inductive Tiles : Option Char → List Char → List Lexeme → Prop
  | nil {before : Option Char} : Tiles before [] []
  | bad {before : Option Char} {c : Char} {cs : List Char} {cls : LexemeClass} {tail : Nat} :
      recognise before c cs = (cls, tail) → cls.isBad = true →
      Tiles before (c :: cs) [⟨cls, c :: cs.take tail⟩]
  | cons {before : Option Char} {c : Char} {cs : List Char} {cls : LexemeClass} {tail : Nat}
      {rest : List Lexeme} : recognise before c cs = (cls, tail) → cls.isBad = false →
      Tiles (c :: cs.take tail).getLast? (cs.drop tail) rest →
      Tiles before (c :: cs) (⟨cls, c :: cs.take tail⟩ :: rest)

theorem tiles_lexemesF (fuel : Nat) (before : Option Char) (cs : List Char)
    (h : cs.length ≤ fuel) : Tiles before cs (lexemesF fuel before cs) := by
  induction fuel generalizing before cs with
  | zero =>
      obtain rfl : cs = [] := List.eq_nil_of_length_eq_zero (by omega)
      exact .nil
  | succ fuel ih =>
      cases cs with
      | nil => exact .nil
      | cons c cs =>
          rw [lexemesF]
          rcases hread : recognise before c cs with ⟨cls, tail⟩
          dsimp only
          cases hbad : cls.isBad with
          | true => exact .bad hread hbad
          | false =>
              refine .cons hread hbad (ih _ _ ?_)
              simp at h ⊢
              omega

theorem tiles_lexemes (source : List Char) : Tiles none source (lexemes source) :=
  tiles_lexemesF _ _ _ (Nat.le_refl _)

theorem Tiles.unique {before : Option Char} {cs : List Char} {ls ls' : List Lexeme}
    (h : Tiles before cs ls) (h' : Tiles before cs ls') : ls = ls' := by
  induction h generalizing ls' with
  | nil =>
      cases h' with
      | nil => rfl
  | bad hread hbad =>
      cases h' with
      | bad hread' _ =>
          obtain ⟨rfl, rfl⟩ := Prod.mk.inj (hread.symm.trans hread')
          rfl
      | cons hread' hgood _ =>
          obtain ⟨rfl, rfl⟩ := Prod.mk.inj (hread.symm.trans hread')
          simp [hbad] at hgood
  | cons hread hgood _ ih =>
      cases h' with
      | bad hread' hbad =>
          obtain ⟨rfl, rfl⟩ := Prod.mk.inj (hread.symm.trans hread')
          simp [hbad] at hgood
      | cons hread' _ hrest =>
          obtain ⟨rfl, rfl⟩ := Prod.mk.inj (hread.symm.trans hread')
          rw [ih hrest]

/-- The text of a row of lexemes. -/
def textOf (ls : List Lexeme) : List Char :=
  ls.flatMap Lexeme.text

@[simp] theorem textOf_nil : textOf [] = [] := rfl

@[simp] theorem textOf_cons (l : Lexeme) (ls : List Lexeme) :
    textOf (l :: ls) = l.text ++ textOf ls := by
  simp [textOf]

@[simp] theorem textOf_append (ls ms : List Lexeme) :
    textOf (ls ++ ms) = textOf ls ++ textOf ms := by
  simp [textOf]

theorem Tiles.text {before : Option Char} {cs : List Char} {ls : List Lexeme}
    (h : Tiles before cs ls) :
    textOf ls <+: cs ∧ ((∀ l ∈ ls, l.cls.isBad = false) → textOf ls = cs) := by
  induction h with
  | nil => simp
  | bad _ hbad =>
      rename_i c cs cls tail _
      refine ⟨?_, fun hgood => ?_⟩
      · simpa using List.take_prefix tail cs
      · simp [hbad] at hgood
  | cons _ _ _ ih =>
      rename_i c cs cls tail rest _ _ _
      obtain ⟨⟨more, hmore⟩, hall⟩ := ih
      refine ⟨⟨more, ?_⟩, fun hgood => ?_⟩
      · simp [hmore]
      · have hrest := hall fun l hl => hgood l (List.mem_cons_of_mem _ hl)
        simp [hrest]

/-! ### Places -/

theorem Position.past_singleton (p : Position) (c : Char) : p.past [c] = p.step c := rfl

theorem Position.past_of_feedless (p : Position) {text : List Char} (h : '\n' ∉ text) :
    p.past text = ⟨p.line, p.column + text.length⟩ := by
  induction text generalizing p with
  | nil => rfl
  | cons c rest ih =>
      obtain ⟨hc, hrest⟩ : '\n' ≠ c ∧ '\n' ∉ rest := by simpa using h
      show (p.step c).past rest = _
      rw [ih _ hrest, Position.step, if_neg (by simpa using Ne.symm hc), List.length_cons]
      exact congrArg (Position.mk p.line) (Nat.add_right_comm p.column 1 rest.length)

theorem Position.past_of_feed (p : Position) {text : List Char} (h : '\n' ∈ text) :
    p.past text = ⟨p.line + text.count '\n', text.reverse.idxOf '\n' + 1⟩ := by
  induction text using List.reverseRecOn with
  | nil => cases h
  | append_singleton text c ih =>
      rw [past_append, past_singleton, List.reverse_append, List.reverse_singleton,
        List.singleton_append, List.idxOf_cons, List.count_append, List.count_singleton]
      by_cases hc : c = '\n'
      · subst hc
        have hline : (p.past text).line = p.line + text.count '\n' := by
          by_cases hmem : '\n' ∈ text
          · rw [ih hmem]
          · rw [past_of_feedless p hmem, List.count_eq_zero.2 hmem, Nat.add_zero]
        simp [step, hline, Nat.add_assoc]
      · have hmem : '\n' ∈ text := by simpa [Ne.symm hc] using h
        have hbeq : (c == '\n') = false := by simpa using hc
        simp [ih hmem, step, hbeq]

/-- The last line of a text, up to its end. -/
def lastLine (cs : List Char) : List Char :=
  (cs.reverse.takeWhile (· != '\n')).reverse

theorem lastLine_concat (cs : List Char) (c : Char) :
    lastLine (cs ++ [c]) = if c = '\n' then [] else lastLine cs ++ [c] := by
  by_cases hc : c = '\n' <;> simp [lastLine, hc]

theorem Position.past_start (cs : List Char) :
    Position.start.past cs = ⟨1 + cs.count '\n', 1 + (lastLine cs).length⟩ := by
  -- from the end, since the last line is known by its last characters
  rw [← List.reverse_reverse cs]
  induction cs.reverse with
  | nil => rfl
  | cons c rest ih =>
      rw [List.reverse_cons, past_append, ih, past_singleton, step, lastLine_concat]
      by_cases hc : c = '\n'
      · simp [hc]
        omega
      · simp [hc]
        omega

/-- The lines of a text, divided by line feeds. -/
def linesOf (cs : List Char) : List (List Char) :=
  cs.splitOn '\n'

theorem linesOf_cons (c : Char) (cs : List Char) :
    linesOf (c :: cs) =
      if c = '\n' then [] :: linesOf cs else (linesOf cs).modifyHead (c :: ·) := by
  by_cases hc : c = '\n' <;> simp [linesOf, List.splitOn, List.splitOnP_cons_eq_if_modifyHead, hc]

theorem length_linesOf (cs : List Char) : (linesOf cs).length = 1 + cs.count '\n' := by
  induction cs with
  | nil => rfl
  | cons c cs ih =>
      rw [linesOf_cons]
      by_cases hc : c = '\n'
      · simp [hc, ih]
        omega
      · simp [hc, ih]

theorem lastLine_cons (c : Char) (cs : List Char) :
    lastLine (c :: cs) = if c = '\n' ∨ '\n' ∈ cs then lastLine cs else c :: lastLine cs := by
  simp only [lastLine, List.reverse_cons, List.takeWhile_append]
  by_cases hmem : '\n' ∈ cs
  · have hshort : (cs.reverse.takeWhile (· != '\n')).length ≠ cs.reverse.length := by
      intro hlen
      have hself := (List.takeWhile_prefix (· != '\n')).eq_of_length hlen
      have hall := List.all_takeWhile (p := (· != '\n')) (l := cs.reverse)
      rw [hself, List.all_eq_true] at hall
      simpa using hall '\n' (List.mem_reverse.2 hmem)
    rw [if_neg hshort, if_pos (.inr hmem)]
  · have hself : cs.reverse.takeWhile (· != '\n') = cs.reverse := by
      rw [← List.append_nil cs.reverse, List.takeWhile_append_of_pos]
      · simp
      · intro d hd
        simp only [bne_iff_ne, ne_eq]
        rintro rfl
        exact hmem (List.mem_reverse.1 hd)
    by_cases hc : c = '\n' <;> simp [hself, hmem, hc]

theorem lastLine_prefix (before behind : List Char) :
    ∃ line, (linesOf (before ++ behind))[before.count '\n']? = some line ∧
      lastLine before <+: line := by
  induction before with
  | nil =>
      have hpos : 0 < (linesOf behind).length := by
        rw [length_linesOf]
        omega
      exact ⟨_, List.getElem?_eq_getElem hpos, List.nil_prefix⟩
  | cons c before ih =>
      obtain ⟨line, hline, hprefix⟩ := ih
      rw [List.cons_append, linesOf_cons, lastLine_cons]
      by_cases hc : c = '\n'
      · exact ⟨line, by simpa [hc] using hline, by simpa [hc] using hprefix⟩
      · by_cases hmem : '\n' ∈ before
        · -- the character belongs to the first line, which is not the one in question
          have hne : before.count '\n' ≠ 0 := mt List.count_eq_zero.1 (not_not_intro hmem)
          refine ⟨line, ?_, by simpa [hmem] using hprefix⟩
          simpa [hc, List.getElem?_modifyHead, hne] using hline
        · have hzero : before.count '\n' = 0 := List.count_eq_zero.2 hmem
          rw [hzero] at hline
          refine ⟨c :: line, ?_, by simpa [hc, hmem] using hprefix⟩
          simp [hc, List.getElem?_modifyHead, hzero, hline]

/-- A place of a script, by line and column, at which one of its lexemes starts, or the place behind
its last character. -/
def IsMark (source : List Char) (line column : Nat) : Prop :=
  ∃ before behind : List Char, source = before ++ behind ∧
    (behind = [] ∨ ∃ done lexeme ahead, lexemes source = done ++ lexeme :: ahead ∧
      before = textOf done) ∧
    line = 1 + before.count '\n' ∧ column = 1 + (lastLine before).length

theorem IsMark.within {source : List Char} {line column : Nat} (h : IsMark source line column) :
    1 ≤ line ∧ line ≤ 1 + source.count '\n' ∧ 1 ≤ column ∧
      ∃ row, (linesOf source)[line - 1]? = some row ∧ column ≤ row.length + 1 := by
  obtain ⟨before, behind, rfl, -, rfl, rfl⟩ := h
  obtain ⟨row, hrow, hprefix⟩ := lastLine_prefix before behind
  have hlen := hprefix.length_le
  refine ⟨by omega, by simp, by omega, row, ?_, by omega⟩
  rwa [Nat.add_sub_cancel_left]

theorem isMark_of_lexeme {source : List Char} {done ahead : List Lexeme} {lexeme : Lexeme}
    (h : lexemes source = done ++ lexeme :: ahead) :
    IsMark source (Position.start.past (textOf done)).line
      (Position.start.past (textOf done)).column := by
  obtain ⟨behind, hbehind⟩ := (tiles_lexemes source).text.1
  rw [h, textOf_append, List.append_assoc] at hbehind
  rw [Position.past_start]
  exact ⟨textOf done, _, hbehind.symm, .inr ⟨done, lexeme, ahead, h, rfl⟩, rfl, rfl⟩

/-! ### Tapes -/

theorem Lexeme.fault_of_read {file : Option String} {p : Position} {brackets : Nat}
    {lexeme : Lexeme} {fault : Fault} (h : lexeme.read file p brackets = .fault fault) :
    (∃ cause, fault = .lex cause ⟨p.line, p.column, file⟩) ∨
      (lexeme.cls = .whole ∧ Number.maxDigits < lexeme.text.length ∧
        fault = .tooManyDigitsRead lexeme.text.length) := by
  unfold Lexeme.read readWhole at h
  grind

theorem Lexeme.not_eof_of_read {file : Option String} {p : Position} {brackets : Nat}
    {lexeme : Lexeme} {item : Item} (h : lexeme.read file p brackets = .item item) :
    item.is .eof = false := by
  unfold Lexeme.read readWhole at h
  grind [Item.is, Item.kind]

theorem Lexeme.not_isBad_of_read {file : Option String} {p : Position} {brackets : Nat}
    {lexeme : Lexeme} (h : ∀ fault, lexeme.read file p brackets ≠ .fault fault) :
    lexeme.cls.isBad = false := by
  cases hcls : lexeme.cls <;> simp_all [Lexeme.read, LexemeClass.isBad]

theorem place_of_mem_tapeFrom {file : Option String} {p : Position} {brackets : Nat}
    {ls : List Lexeme} {token : Token} (h : token ∈ (tapeFrom file p brackets ls).tokens) :
    (∃ done lexeme ahead, ls = done ++ lexeme :: ahead ∧
      (⟨token.line, token.column⟩ : Position) = p.past (textOf done)) ∨
    ((⟨token.line, token.column⟩ : Position) = p.past (textOf ls) ∧
      (tapeFrom file p brackets ls).fault = none) := by
  induction ls generalizing p brackets with
  | nil =>
      rw [tapeFrom, List.mem_singleton] at h
      subst h
      exact .inr ⟨rfl, rfl⟩
  | cons l ls ih =>
      have hrest : ∀ b, token ∈ (tapeFrom file (p.past l.text) b ls).tokens →
          (∃ done lexeme ahead, l :: ls = done ++ lexeme :: ahead ∧
            (⟨token.line, token.column⟩ : Position) = p.past (textOf done)) ∨
          ((⟨token.line, token.column⟩ : Position) = p.past (textOf (l :: ls)) ∧
            (tapeFrom file (p.past l.text) b ls).fault = none) := by
        intro b hb
        rcases ih hb with ⟨done, lexeme, ahead, rfl, hplace⟩ | ⟨hplace, hfault⟩
        · exact .inl ⟨l :: done, lexeme, ahead, rfl, by simpa using hplace⟩
        · exact .inr ⟨by simpa using hplace, hfault⟩
      rw [tapeFrom] at h ⊢
      cases hread : l.read file p brackets with
      | nothing =>
          simp only [hread] at h ⊢
          exact hrest _ h
      | fault fault => simp [hread] at h
      | item item =>
          simp only [hread, List.mem_cons] at h ⊢
          rcases h with rfl | h
          · exact .inl ⟨[], l, ls, rfl, rfl⟩
          · exact hrest _ h

theorem read_of_tapeFrom_fault {file : Option String} {p : Position} {brackets : Nat}
    {ls : List Lexeme} {fault : Fault}
    (h : (tapeFrom file p brackets ls).fault = some fault) :
    ∃ done lexeme ahead b, ls = done ++ lexeme :: ahead ∧
      lexeme.read file (p.past (textOf done)) b = .fault fault ∧
      ∀ token ∈ (tapeFrom file p brackets ls).tokens, ∃ front l behind,
        done = front ++ l :: behind ∧
          (⟨token.line, token.column⟩ : Position) = p.past (textOf front) := by
  induction ls generalizing p brackets with
  | nil => cases h
  | cons l ls ih =>
      have hrest : ∀ b, (tapeFrom file (p.past l.text) b ls).fault = some fault →
          ∃ done lexeme ahead b', ls = done ++ lexeme :: ahead ∧
            lexeme.read file (p.past (textOf (l :: done))) b' = .fault fault ∧
            ∀ token ∈ (tapeFrom file (p.past l.text) b ls).tokens, ∃ front l' behind,
              l :: done = front ++ l' :: behind ∧
                (⟨token.line, token.column⟩ : Position) = p.past (textOf front) := by
        intro b hb
        obtain ⟨done, lexeme, ahead, b', hls, hread, hplaces⟩ := ih hb
        refine ⟨done, lexeme, ahead, b', hls, by simpa using hread, ?_⟩
        intro token htoken
        obtain ⟨front, l', behind, rfl, hplace⟩ := hplaces token htoken
        exact ⟨l :: front, l', behind, rfl, by simpa using hplace⟩
      rw [tapeFrom] at h ⊢
      cases hread : l.read file p brackets with
      | nothing =>
          simp only [hread] at h ⊢
          obtain ⟨done, lexeme, ahead, b', rfl, hbad, hplaces⟩ := hrest _ h
          exact ⟨l :: done, lexeme, ahead, b', rfl, hbad, hplaces⟩
      | fault met =>
          simp only [hread] at h ⊢
          obtain rfl := Option.some.inj h
          exact ⟨[], l, ls, brackets, rfl, hread, by simp⟩
      | item item =>
          simp only [hread] at h ⊢
          obtain ⟨done, lexeme, ahead, b', rfl, hbad, hplaces⟩ := hrest _ h
          refine ⟨l :: done, lexeme, ahead, b', rfl, hbad, List.forall_mem_cons.2 ⟨?_, hplaces⟩⟩
          exact ⟨[], l, done, rfl, rfl⟩

theorem tapeFrom_ended {file : Option String} {p : Position} {brackets : Nat} {ls : List Lexeme}
    (h : (tapeFrom file p brackets ls).fault = none) :
    Ended (tapeFrom file p brackets ls).tokens ∧ ∀ l ∈ ls, l.cls.isBad = false := by
  induction ls generalizing p brackets with
  | nil => exact ⟨⟨[], _, rfl, rfl, nofun⟩, nofun⟩
  | cons l ls ih =>
      rw [tapeFrom] at h ⊢
      cases hread : l.read file p brackets with
      | nothing =>
          simp only [hread] at h ⊢
          obtain ⟨hended, hgood⟩ := ih h
          refine ⟨hended, List.forall_mem_cons.2 ⟨?_, hgood⟩⟩
          exact Lexeme.not_isBad_of_read (by rw [hread]; nofun)
      | fault met => simp [hread] at h
      | item item =>
          simp only [hread] at h ⊢
          obtain ⟨⟨body, stop, htokens, hstop, hbody⟩, hgood⟩ := ih h
          refine ⟨⟨⟨item, p.line, p.column⟩ :: body, stop, by rw [htokens]; rfl, hstop,
            List.forall_mem_cons.2 ⟨?_, hbody⟩⟩, List.forall_mem_cons.2 ⟨?_, hgood⟩⟩
          · exact Lexeme.not_eof_of_read hread
          · exact Lexeme.not_isBad_of_read (by rw [hread]; nofun)

theorem tapeFrom_broken {file : Option String} {p : Position} {brackets : Nat} {ls : List Lexeme}
    {fault : Fault} (h : (tapeFrom file p brackets ls).fault = some fault) :
    ∀ t ∈ (tapeFrom file p brackets ls).tokens, t.is .eof = false := by
  induction ls generalizing p brackets with
  | nil => cases h
  | cons l ls ih =>
      rw [tapeFrom] at h ⊢
      cases hread : l.read file p brackets with
      | nothing =>
          simp only [hread] at h ⊢
          exact ih h
      | fault met => simp
      | item item =>
          simp only [hread] at h ⊢
          exact List.forall_mem_cons.2 ⟨Lexeme.not_eof_of_read hread, ih h⟩

section Script

variable {file : Option String} {source : String}

theorem textOf_of_tape (h : (tape file source).fault = none) :
    textOf (lexemes source.toList) = source.toList :=
  (tiles_lexemes _).text.2 (tapeFrom_ended h).2

theorem isMark_of_mem_tape {token : Token} (h : token ∈ (tape file source).tokens) :
    IsMark source.toList token.line token.column := by
  rcases place_of_mem_tapeFrom h with ⟨done, lexeme, ahead, hls, hplace⟩ | ⟨hplace, hfault⟩
  · have hmark := isMark_of_lexeme hls
    rwa [← hplace] at hmark
  · rw [textOf_of_tape hfault, Position.past_start] at hplace
    obtain ⟨hline, hcolumn⟩ := Position.mk.inj hplace
    exact ⟨source.toList, [], (List.append_nil _).symm, .inl rfl, hline, hcolumn⟩

theorem fault_of_tape {fault : Fault} (h : (tape file source).fault = some fault) :
    (∃ cause line column, fault = .lex cause ⟨line, column, file⟩ ∧
      IsMark source.toList line column) ∨
    ∃ lexeme ∈ lexemes source.toList, lexeme.cls = .whole ∧
      Number.maxDigits < lexeme.text.length ∧ fault = .tooManyDigitsRead lexeme.text.length := by
  obtain ⟨done, lexeme, ahead, brackets, hls, hread, -⟩ := read_of_tapeFrom_fault h
  rcases Lexeme.fault_of_read hread with ⟨cause, rfl⟩ | ⟨hcls, hlen, rfl⟩
  · exact .inl ⟨cause, _, _, rfl, isMark_of_lexeme hls⟩
  · exact .inr ⟨lexeme, by simp [hls], hcls, hlen, rfl⟩

end Script

end TriggerEngine
