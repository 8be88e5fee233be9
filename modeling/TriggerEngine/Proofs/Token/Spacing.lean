/-
**A blank between two lexemes.**

A blank may be put between any two lexemes of a script: it is a lexeme of its own, or it becomes
part of the blanks or of the comment beside it, and no other lexeme grows or shrinks by it.  The
tokens stay the same as well, with one exception.  A word of the language that is glued to a digit
is a name; a blank sets it free, provided that nothing is glued to its other end.

Main definitions:

* `said` — the items of a row of lexemes;
* `Alike` — texts between which the lexemes in front of them see no difference;
* `Frees` — a blank between two lexemes sets a word of the language free.

Main results:

* `said_spoken` — blanks and comments say nothing;
* `Tiles.space` — the lexemes of a script with one more blank;
* `tape_spaced` — **its tokens**.
-/

import TriggerEngine.Proofs.Token.Placement

set_option autoImplicit false

namespace TriggerEngine

open Text

/-! ### What lexemes say -/

/-- The items of a tape, without their places. -/
def Tape.items (t : Tape) : List Item :=
  t.tokens.map Token.item

/-- The item of a lexeme, inside open brackets. -/
def Lexeme.item? (brackets : Nat) (l : Lexeme) : List Item :=
  match l.read none .start brackets with
  | .item item => [item]
  | _ => []

/-- The items of a row of lexemes, inside open brackets, and the end behind them, if all of them
have a meaning. -/
def said : Nat → List Lexeme → Option (List Item)
  | _, [] => some [.eof]
  | brackets, l :: ls =>
      if l.isBroken then none
      else (said (l.bracketsAfter brackets) ls).map (l.item? brackets ++ ·)

theorem said_eq_some_iff {file : Option String} {p : Position} {brackets : Nat} {ls : List Lexeme}
    {items : List Item} :
    said brackets ls = some items ↔
      (tapeFrom file p brackets ls).fault = none ∧
        (tapeFrom file p brackets ls).items = items := by
  induction ls generalizing p brackets items with
  | nil => simp [said, tapeFrom, Tape.items]
  | cons l ls ih =>
      cases hok : l.isBroken with
      | true =>
          obtain ⟨fault, -, htape⟩ := tapeFrom_cons_broken file p brackets ls hok
          simp [said, hok, htape]
      | false =>
          have hsame : ∀ met, l.read file p brackets = met → l.read none .start brackets = met := by
            rintro met rfl
            refine Lexeme.read_congr fun fault hfault => ?_
            simp [Lexeme.isBroken_iff.2 ⟨fault, hfault⟩] at hok
          rw [said, hok, if_neg Bool.false_ne_true, Option.map_eq_some_iff]
          rcases tapeFrom_cons file p brackets ls hok with
            ⟨hread, htape⟩ | ⟨own, hread, htape⟩
          · have hitem : l.item? brackets = [] := by rw [Lexeme.item?, hsame _ hread]
            simp [hitem, htape, ← ih]
          · have hitem : l.item? brackets = [own] := by rw [Lexeme.item?, hsame _ hread]
            simp only [hitem, htape, ih (p := p.past l.text)]
            simp [Tape.items]

theorem said_replace {brackets : Nat} {done ahead : List Lexeme} {l m : Lexeme} {i j : Item}
    {items : List Item} (hok : m.isBroken = false) (hl : ∀ b, l.item? b = [i])
    (hm : ∀ b, m.item? b = [j]) (hbrackets : ∀ b, m.bracketsAfter b = l.bracketsAfter b)
    (h : said brackets (done ++ l :: ahead) = some items) :
    ∃ front behind, said brackets done = some (front ++ [.eof]) ∧ items = front ++ i :: behind ∧
      said brackets (done ++ m :: ahead) = some (front ++ j :: behind) := by
  induction done generalizing brackets items with
  | nil =>
      rw [List.nil_append, said] at h
      split at h
      · cases h
      · obtain ⟨behind, hbehind, rfl⟩ := Option.map_eq_some_iff.1 h
        refine ⟨[], behind, rfl, by rw [hl]; rfl, ?_⟩
        rw [List.nil_append, said, hok, hbrackets, hbehind, hm]
        rfl
  | cons d done ih =>
      rw [List.cons_append, said] at h
      split at h
      · cases h
      · rename_i hd
        obtain ⟨rest, hrest, rfl⟩ := Option.map_eq_some_iff.1 h
        obtain ⟨front, behind, hfront, rfl, hsaid⟩ := ih hrest
        refine ⟨d.item? brackets ++ front, behind, ?_, by simp, ?_⟩
        · rw [said, if_neg hd, hfront]
          simp
        · rw [List.cons_append, said, if_neg hd, hsaid]
          simp

/-- Comments and blanks. -/
def LexemeClass.isSilent : LexemeClass → Bool
  | .blockComment => true
  | .lineComment => true
  | .blank => true
  | _ => false

/-- The lexemes that are neither comments nor blanks. -/
def spoken (ls : List Lexeme) : List Lexeme :=
  ls.filter fun l => !l.cls.isSilent

theorem said_spoken (brackets : Nat) (ls : List Lexeme) :
    said brackets (spoken ls) = said brackets ls := by
  induction ls generalizing brackets with
  | nil => rfl
  | cons l ls ih =>
      cases hsilent : l.cls.isSilent with
      | true =>
          have hsays : l.isBroken = false ∧ l.item? brackets = [] ∧
              l.bracketsAfter brackets = brackets := by
            cases hcls : l.cls <;> simp_all [LexemeClass.isSilent, Lexeme.isBroken, LexemeClass.isBad,
              Lexeme.item?, Lexeme.read, Lexeme.bracketsAfter]
          obtain ⟨hok, hitem, hbrackets⟩ := hsays
          rw [spoken, List.filter_cons_of_neg (by simp [hsilent]), ← spoken, ih, said, hok, hitem,
            hbrackets]
          simp
      | false =>
          rw [spoken, List.filter_cons_of_pos (by simp [hsilent]), ← spoken, said, said, ih]

/-! ### Lexemes in other surroundings -/

/-- Two texts between which the lexemes in front of them see no difference: they start with the same
character, and a digit behind it in the second one stands in the first one as well. -/
structure Alike (cs ds : List Char) : Prop where
  head : ds.head? = cs.head?
  second : (ds.drop 1).head?.any isDecimal = true → (cs.drop 1).head?.any isDecimal = true

theorem Alike.append {cs ds : List Char} (h : Alike cs ds) (text : List Char) :
    Alike (text ++ cs) (text ++ ds) := by
  cases text with
  | nil => exact h
  | cons c text =>
      cases text with
      | nil => exact ⟨rfl, by simp [h.head]⟩
      | cons d text => exact ⟨rfl, id⟩

theorem Alike.blank {text : List Char} (htext : text ≠ []) (cs : List Char) :
    Alike (text ++ cs) (text ++ ' ' :: cs) := by
  obtain ⟨c, text, rfl⟩ := List.exists_cons_of_ne_nil htext
  cases text with
  | nil => exact ⟨rfl, fun h => by cases h⟩
  | cons d text => exact ⟨rfl, id⟩

theorem LexemeClass.endsBefore_of_alike {cls : LexemeClass} {cs ds : List Char} (h : Alike cs ds)
    (hends : cls.endsBefore cs = true) : cls.endsBefore ds = true := by
  cases cls with
  | whole =>
      obtain ⟨hdigit, hpoint⟩ := Bool.and_eq_true_iff.1 hends
      refine Bool.and_eq_true_iff.2 ⟨by rwa [h.head], ?_⟩
      rw [Bool.not_eq_true', Bool.and_eq_false_iff] at hpoint ⊢
      refine hpoint.imp (fun hhead => by rwa [h.head]) fun hsecond => ?_
      exact Bool.eq_false_iff.2 fun hdigit' =>
        Bool.false_ne_true (hsecond.symm.trans (h.second hdigit'))
  | blockComment | string | newline | openComment | openString | stray => exact hends
  | _ => simpa only [endsBefore, h.head] using hends

/-- A lexeme with the class that it has between two neighbours. -/
def Lexeme.within (before after : Option Char) (l : Lexeme) : Lexeme :=
  ⟨l.cls.within before l.text after, l.text⟩

theorem getLast?_textOf_cons {l : Lexeme} (h : l.text ≠ []) (done : List Lexeme)
    (before : Option Char) :
    (textOf (l :: done)).getLast?.or before = (textOf done).getLast?.or l.text.getLast? := by
  have hsome : l.text.getLast?.isSome = true := by simpa using h
  rw [textOf_cons, List.getLast?_append, Option.or_assoc, Option.or_of_isSome hsome]

theorem Tiles.drop {before : Option Char} {cs : List Char} {done ls : List Lexeme}
    (h : Tiles before cs (done ++ ls)) (hgood : ∀ l ∈ done, l.cls.isBad = false) :
    ∃ rest, cs = textOf done ++ rest ∧ Tiles ((textOf done).getLast?.or before) rest ls := by
  induction done generalizing before cs with
  | nil => exact ⟨cs, rfl, h⟩
  | cons l done ih =>
      obtain ⟨hl, hdone⟩ := List.forall_mem_cons.1 hgood
      obtain ⟨rest, rfl, hstands, hrest⟩ := h.uncons
      obtain ⟨rest, rfl, htiles⟩ := ih (hrest hl) hdone
      exact ⟨rest, by simp, by rwa [getLast?_textOf_cons hstands.spelled.ne_nil]⟩

theorem Tiles.replace {before : Option Char} {cs ds : List Char} {done ls ms : List Lexeme}
    (halike : Alike cs ds) (h : Tiles before (textOf done ++ cs) (done ++ ls))
    (hgood : ∀ l ∈ done, l.cls.isBad = false)
    (h' : Tiles ((textOf done).getLast?.or before) ds ms) :
    Tiles before (textOf done ++ ds) (done ++ ms) := by
  induction done generalizing before with
  | nil => exact h'
  | cons l done ih =>
      obtain ⟨hl, hdone⟩ := List.forall_mem_cons.1 hgood
      obtain ⟨rest, htext, hstands, hrest⟩ := h.uncons
      obtain rfl : rest = textOf done ++ cs := by
        rw [textOf_cons, List.append_assoc] at htext
        exact (List.append_cancel_left htext).symm
      rw [getLast?_textOf_cons hstands.spelled.ne_nil] at h'
      have hmore := halike.append (textOf done)
      have htiles := Tiles.cons_spelled before hstands.spelled
        (LexemeClass.endsBefore_of_alike hmore (hstands.ends hl)) (ih (hrest hl) hdone h')
      rw [hmore.head, hstands.fits] at htiles
      simpa using htiles

/-! ### One more blank -/

theorem Spelled.head_not_spacing {cls : LexemeClass} {text : List Char} (h : Spelled cls text)
    (hgood : cls.isBad = false) (hcls : cls ≠ .blank) : text.head?.any isSpacing = false := by
  have hnot : ∀ {c : Char} (p : Char → Bool), p ' ' = false → p '\t' = false → p '\r' = false →
      p c = true → isSpacing c = false := by
    intro c p hblank htab hreturn hc
    refine Bool.eq_false_iff.2 fun hspacing => ?_
    have hcases : c = ' ' ∨ c = '\t' ∨ c = '\r' := by
      simpa [isSpacing, or_assoc] using hspacing
    rcases hcases with rfl | rfl | rfl <;> simp_all
  cases h with
  | blank => exact absurd rfl hcls
  | whole hc | decimal hc => exact hnot isDecimal (by decide) (by decide) (by decide) hc
  | ident hc => exact hnot startsName (by decide) (by decide) (by decide) hc
  | keyword k => cases k <;> decide
  | symbol s => cases s <;> decide
  | string hmark => rcases hmark with rfl | rfl <;> rfl
  | openComment | openString | stray => cases hgood
  | _ => rfl

theorem LexemeClass.endsBefore_blank {cls : LexemeClass} (hgood : cls.isBad = false)
    (hblank : cls ≠ .blank) (hline : cls ≠ .lineComment) (cs : List Char) :
    cls.endsBefore (' ' :: cs) = true := by
  cases cls with
  | symbol s => cases s <;> rfl
  | blank => exact absurd rfl hblank
  | lineComment => exact absurd rfl hline
  | openComment | openString | stray => cases hgood
  | _ => rfl

theorem Spelled.concat_blank {cls : LexemeClass} {text : List Char} (h : Spelled cls text)
    (hcls : cls = .blank ∨ cls = .lineComment) : Spelled cls (text ++ [' ']) := by
  rcases hcls with rfl | rfl
  · cases h with
    | blank hc hblanks =>
        exact .blank hc (List.forall_mem_append.2 ⟨hblanks, List.forall_mem_singleton.2 rfl⟩)
  · cases h with
    | lineComment hbody => exact .lineComment (by simpa using hbody)

section SpaceFirst

variable {before : Option Char} {rest : List Char} {l m : Lexeme} {ahead : List Lexeme}

theorem spoken_cons_silent {cls : LexemeClass} (text : List Char) (ls : List Lexeme)
    (h : cls.isSilent = true) : spoken (⟨cls, text⟩ :: ls) = spoken ls := by
  simp [spoken, h]

theorem spoken_cons_congr (l : Lexeme) {ls ms : List Lexeme} (h : spoken ls = spoken ms) :
    spoken (l :: ls) = spoken (l :: ms) := by
  unfold spoken at h ⊢
  rw [List.filter_cons, List.filter_cons, h]

theorem Tiles.space_silent (hl : Stands before l.cls l.text (m.text ++ rest))
    (hcls : l.cls = .blank ∨ l.cls = .lineComment)
    (hnext : Tiles (some ' ') (m.text ++ rest) (m.within (some ' ') rest.head? :: ahead)) :
    ∃ ls, Tiles before (l.text ++ ' ' :: (m.text ++ rest)) ls ∧
      spoken ls =
        spoken (l.within before (some ' ') :: m.within (some ' ') rest.head? :: ahead) := by
  have hgood : l.cls.isBad = false := by rcases hcls with h | h <;> rw [h] <;> rfl
  have htiles := Tiles.cons_spelled before (hl.spelled.concat_blank hcls)
    (hl.ends hgood) (by rw [List.getLast?_concat]; exact hnext)
  rw [List.append_assoc, List.singleton_append] at htiles
  refine ⟨_, htiles, ?_⟩
  have hsilent : ∀ text after, (l.cls.within before text after).isSilent = true := by
    intro text after
    rcases hcls with h | h <;> rw [h] <;> rfl
  exact (spoken_cons_silent _ _ (hsilent _ _)).trans (spoken_cons_silent _ _ (hsilent _ _)).symm

theorem Tiles.space_first (h : Tiles before (l.text ++ (m.text ++ rest)) (l :: m :: ahead))
    (hl : l.cls.isBad = false) (hm : m.cls.isBad = false) :
    ∃ ls, Tiles before (l.text ++ ' ' :: (m.text ++ rest)) ls ∧
      spoken ls =
        spoken (l.within before (some ' ') :: m.within (some ' ') rest.head? :: ahead) := by
  obtain ⟨_, htext, hstands, htail⟩ := h.uncons
  obtain rfl := List.append_cancel_left htext
  obtain ⟨_, htext, hstands', hahead⟩ := (htail hl).uncons
  obtain rfl := List.append_cancel_left htext
  -- behind a blank only the class of the next lexeme may differ
  have hnext : Tiles (some ' ') (m.text ++ rest) (m.within (some ' ') rest.head? :: ahead) :=
    .cons_spelled _ hstands'.spelled (hstands'.ends hm) (hahead hm)
  by_cases hsilent : l.cls = .blank ∨ l.cls = .lineComment
  · exact Tiles.space_silent hstands hsilent hnext
  obtain ⟨hblank, hline⟩ := not_or.1 hsilent
  have hspaced := LexemeClass.endsBefore_blank hl hblank hline
  by_cases hblank' : m.cls = .blank
  · -- the blank becomes the first of those behind it
    have hwithin : ∀ before text after, m.cls.within before text after = .blank := by
      intro before text after
      rw [hblank']
      rfl
    have hmore : Spelled .blank (' ' :: m.text) := by
      have hspelled := hstands'.spelled
      rw [hblank'] at hspelled
      generalize m.text = text at hspelled
      cases hspelled with
      | blank hc hblanks => exact .blank rfl (List.forall_mem_cons.2 ⟨hc, hblanks⟩)
    have hlast : (' ' :: m.text).getLast? = m.text.getLast? := by
      obtain ⟨c, text, hcons⟩ := List.exists_cons_of_ne_nil hstands'.spelled.ne_nil
      rw [hcons, List.getLast?_cons_cons]
    have hone := Tiles.cons_spelled l.text.getLast? hmore
      (hblank' ▸ hstands'.ends hm) (hlast ▸ hahead hm)
    refine ⟨_, .cons_spelled _ hstands.spelled (hspaced _) hone, spoken_cons_congr _ ?_⟩
    rw [Lexeme.within, hwithin, spoken_cons_silent _ _ rfl, spoken_cons_silent _ _ rfl]
  · -- the blank is a lexeme of its own
    have hends : LexemeClass.blank.endsBefore (m.text ++ rest) = true := by
      have hhead : (m.text ++ rest).head? = m.text.head? := by
        obtain ⟨c, text, hcons⟩ := List.exists_cons_of_ne_nil hstands'.spelled.ne_nil
        rw [hcons]
        rfl
      rw [LexemeClass.endsBefore, hhead, hstands'.spelled.head_not_spacing hm hblank']
      rfl
    have hone := Tiles.cons_spelled l.text.getLast?
      (show Spelled .blank [' '] from .blank rfl (List.forall_mem_nil _)) hends hnext
    refine ⟨_, .cons_spelled _ hstands.spelled (hspaced _) hone, spoken_cons_congr _ ?_⟩
    exact spoken_cons_silent _ _ rfl

end SpaceFirst

/-- **The lexemes of a script with one more blank**, as far as they say something: those of the
script, where the two beside the blank have the classes that they have beside a blank. -/
theorem Tiles.space {before : Option Char} {cs : List Char} {done ahead : List Lexeme} {l m : Lexeme}
    (h : Tiles before cs (done ++ l :: m :: ahead))
    (hgood : ∀ x ∈ done ++ l :: m :: ahead, x.cls.isBad = false) :
    ∃ ls, Tiles before (textOf done ++ (l.text ++ ' ' :: (m.text ++ textOf ahead))) ls ∧
      spoken ls = spoken (done ++ l.within ((textOf done).getLast?.or before) (some ' ') ::
        m.within (some ' ') (textOf ahead).head? :: ahead) := by
  obtain rfl := h.text.2 hgood
  simp only [List.forall_mem_append, List.forall_mem_cons] at hgood
  obtain ⟨hdone, hl, hm, -⟩ := hgood
  rw [textOf_append, textOf_cons, textOf_cons] at h
  obtain ⟨rest, htext, htiles⟩ := h.drop hdone
  obtain rfl := List.append_cancel_left htext
  obtain ⟨ms, hms, hspoken⟩ := htiles.space_first hl hm
  refine ⟨done ++ ms, h.replace (.blank ?_ _) hdone hms, ?_⟩
  · obtain ⟨_, -, hstands, -⟩ := htiles.uncons
    exact hstands.spelled.ne_nil
  · rw [spoken, List.filter_append, ← spoken, ← spoken, hspoken, spoken, spoken, ← List.filter_append]
    rfl

/-! ### Words set free -/

theorem Keyword.ofText?_text (k : Keyword) : Keyword.ofText? k.text = some k := by
  cases k <;> decide

theorem wordClass_text (before : Option Char) (k : Keyword) (after : Option Char) :
    wordClass before k.text.toList after =
      if isBoundary before && isBoundary after then .keyword k else .ident := by
  rw [wordClass, String.ofList_toList, k.ofText?_text]

/-- A name that is written like a word of the language and turns into that word when it is cut off
from its neighbour on one side, because that neighbour can be part of a word and the one on its
other side cannot. -/
def Frees (k : Keyword) (far : Option Char) (word : Lexeme) (near : Option Char) : Prop :=
  word.cls = .ident ∧ word.text = k.text.toList ∧ isBoundary far = true ∧ isBoundary near = false

theorem isBoundary_blank : isBoundary (some ' ') = true := by
  decide

theorem LexemeClass.within_of_freer {before after : Option Char} {text : List Char}
    {cls : LexemeClass} (before' after' : Option Char) (hfits : cls.within before text after = cls)
    (hfree : (isBoundary before && isBoundary after) = true →
      (isBoundary before' && isBoundary after') = true) :
    cls.within before' text after' = cls ∨
      ∃ k : Keyword, cls = .ident ∧ text = k.text.toList ∧
        (isBoundary before && isBoundary after) = false ∧
        (isBoundary before' && isBoundary after') = true := by
  have hword : (∀ b a, cls.within b text a = wordClass b text a) →
      cls.within before' text after' = cls ∨
        ∃ k : Keyword, cls = .ident ∧ text = k.text.toList ∧
          (isBoundary before && isBoundary after) = false ∧
          (isBoundary before' && isBoundary after') = true := by
    intro hcls
    rw [hcls] at hfits ⊢
    unfold wordClass at hfits ⊢
    cases hk : Keyword.ofText? (String.ofList text) with
    | none => exact .inl (by simpa only [hk] using hfits)
    | some k =>
        have htext : text = k.text.toList := by
          have heq : k.text = String.ofList text := by simpa using List.find?_some hk
          rw [heq, String.toList_ofList]
        simp only [hk] at hfits ⊢
        cases hboth : isBoundary before && isBoundary after with
        | true => exact .inl (by rw [hfree hboth]; rw [hboth] at hfits; exact hfits)
        | false =>
            rw [hboth] at hfits
            cases hboth' : isBoundary before' && isBoundary after' with
            | false => exact .inl hfits
            | true => exact .inr ⟨k, hfits.symm, htext, rfl, rfl⟩
  cases cls with
  | keyword | ident => exact hword fun _ _ => rfl
  | _ => exact .inl rfl

section Words

variable {k : Keyword} {far near : Option Char} {word : Lexeme}

theorem Frees.within (h : Frees k far word near) :
    word.within far (some ' ') = ⟨.keyword k, k.text.toList⟩ ∧
      word.within (some ' ') far = ⟨.keyword k, k.text.toList⟩ := by
  obtain ⟨hcls, htext, hfar, -⟩ := h
  rw [Lexeme.within, Lexeme.within, hcls, htext, LexemeClass.within, LexemeClass.within,
    wordClass_text, wordClass_text, hfar, isBoundary_blank]
  exact ⟨rfl, rfl⟩

theorem within_blank_or_frees (h : word.cls.within far word.text near = word.cls) :
    word.within far (some ' ') = word ∨ ∃ k, Frees k far word near := by
  rcases LexemeClass.within_of_freer far (some ' ') h
    (by rw [isBoundary_blank]; simp +contextual) with hsame | ⟨k, hcls, htext, hglued, hfree⟩
  · exact .inl (by rw [Lexeme.within, hsame])
  · rw [isBoundary_blank, Bool.and_true] at hfree
    rw [hfree, Bool.true_and] at hglued
    exact .inr ⟨k, hcls, htext, hfree, hglued⟩

theorem blank_within_or_frees (h : word.cls.within near word.text far = word.cls) :
    word.within (some ' ') far = word ∨ ∃ k, Frees k far word near := by
  rcases LexemeClass.within_of_freer (some ' ') far h
    (by rw [isBoundary_blank]; simp +contextual) with hsame | ⟨k, hcls, htext, hglued, hfree⟩
  · exact .inl (by rw [Lexeme.within, hsame])
  · rw [isBoundary_blank, Bool.true_and] at hfree
    rw [hfree, Bool.and_true] at hglued
    exact .inr ⟨k, hcls, htext, hfree, hglued⟩

theorem not_endsBefore_word (rest : List Char) :
    LexemeClass.ident.endsBefore (k.text.toList ++ rest) = false := by
  obtain ⟨c, tail, hk, hc, -⟩ := k.name
  rw [hk, LexemeClass.endsBefore, List.cons_append, List.head?_cons, Option.any_some,
    (Bool.and_eq_true_iff.1 hc).1]
  rfl

theorem Frees.said {done ahead : List Lexeme} {items : List Item} (hfrees : Frees k far word near)
    (h : said 0 (done ++ word :: ahead) = some items) :
    ∃ front behind, said 0 done = some (front ++ [.eof]) ∧
      items = front ++ .ident k.text :: behind ∧
      said 0 (done ++ ⟨.keyword k, k.text.toList⟩ :: ahead) =
        some (front ++ .keyword k :: behind) := by
  obtain ⟨hcls, htext, -, -⟩ := hfrees
  refine said_replace rfl (fun b => ?_) (fun b => rfl) (fun b => ?_) h
  · rw [Lexeme.item?, Lexeme.read, hcls, htext]
    simp
  · rw [Lexeme.bracketsAfter, Lexeme.bracketsAfter, hcls]

end Words

/-! ### The tape of a script with one more blank -/

/-- Two rows of lexemes with a blank between them. -/
def spacedText (front behind : List Lexeme) : String :=
  String.ofList (textOf front ++ ' ' :: textOf behind)

section Script

variable {file : Option String} {source : String} {done ahead : List Lexeme} {l m : Lexeme}

section Split

variable (hgood : ∀ x ∈ done ++ l :: m :: ahead, x.cls.isBad = false)
  (hsplit : lexemes source.toList = done ++ l :: m :: ahead)

include hgood hsplit

theorem said_spaced :
    said 0 (lexemes (spacedText (done ++ [l]) (m :: ahead)).toList) =
      said 0 (done ++ l.within (textOf done).getLast? (some ' ') ::
        m.within (some ' ') (textOf ahead).head? :: ahead) := by
  have htiles := tiles_lexemes source.toList
  rw [hsplit] at htiles
  obtain ⟨ls, hls, hspoken⟩ := htiles.space hgood
  have htext : (spacedText (done ++ [l]) (m :: ahead)).toList =
      textOf done ++ (l.text ++ ' ' :: (m.text ++ textOf ahead)) := by simp [spacedText]
  rw [Option.or_none] at hspoken
  rw [htext, (tiles_lexemes _).unique hls, ← said_spoken, hspoken, said_spoken]

theorem stands_of_split :
    l.cls.within (textOf done).getLast? l.text m.text.head? = l.cls ∧
      m.cls.within l.text.getLast? m.text (textOf ahead).head? = m.cls ∧
      l.cls.endsBefore (m.text ++ textOf ahead) = true := by
  have htiles := tiles_lexemes source.toList
  rw [hsplit] at htiles
  have htext := htiles.text.2 hgood
  simp only [List.forall_mem_append, List.forall_mem_cons] at hgood
  obtain ⟨hdone, hl, hm, -⟩ := hgood
  obtain ⟨_, hrest, htail⟩ := htiles.drop hdone
  rw [← htext, textOf_append] at hrest
  obtain rfl := List.append_cancel_left hrest
  obtain ⟨_, hcons, hstands, hbehind⟩ := htail.uncons
  rw [textOf_cons] at hcons
  obtain rfl := List.append_cancel_left hcons
  obtain ⟨_, hcons, hstands', -⟩ := (hbehind hl).uncons
  rw [textOf_cons] at hcons
  obtain rfl := List.append_cancel_left hcons
  have hhead : (textOf (m :: ahead)).head? = m.text.head? := by
    obtain ⟨c, text, hm⟩ := List.exists_cons_of_ne_nil hstands'.spelled.ne_nil
    rw [textOf_cons, hm]
    rfl
  have hfits := hstands.fits
  rw [hhead, Option.or_none] at hfits
  exact ⟨hfits, hstands'.fits, by simpa using hstands.ends hl⟩

end Split

section Tape

variable (hfault : (tape file source).fault = none)
  (hsplit : lexemes source.toList = done ++ l :: m :: ahead)

include hfault hsplit

theorem not_isBad_of_split : ∀ x ∈ done ++ l :: m :: ahead, x.cls.isBad = false :=
  hsplit ▸ (tapeFrom_ended hfault).2

theorem said_source : said 0 (done ++ l :: m :: ahead) = some (tape file source).items := by
  rw [← hsplit]
  exact said_eq_some_iff.2 ⟨hfault, rfl⟩

theorem tape_spaced_of_not_frees (hl : ∀ k, ¬Frees k (textOf done).getLast? l m.text.head?)
    (hm : ∀ k, ¬Frees k (textOf ahead).head? m l.text.getLast?) :
    (tape file (spacedText (done ++ [l]) (m :: ahead))).fault = none ∧
      (tape file (spacedText (done ++ [l]) (m :: ahead))).items = (tape file source).items := by
  have hgood := not_isBad_of_split hfault hsplit
  obtain ⟨hlfits, hmfits, -⟩ := stands_of_split hgood hsplit
  refine said_eq_some_iff.1 ?_
  rw [said_spaced hgood hsplit, (within_blank_or_frees hlfits).resolve_right (not_exists.2 hl),
    (blank_within_or_frees hmfits).resolve_right (not_exists.2 hm), said_source hfault hsplit]

theorem tape_spaced_of_frees_left {k : Keyword}
    (hk : Frees k (textOf done).getLast? l m.text.head?) :
    (tape file (spacedText (done ++ [l]) (m :: ahead))).fault = none ∧
      ∃ front behind, said 0 done = some (front ++ [.eof]) ∧
        (tape file source).items = front ++ .ident k.text :: behind ∧
        (tape file (spacedText (done ++ [l]) (m :: ahead))).items =
          front ++ .keyword k :: behind := by
  have hgood := not_isBad_of_split hfault hsplit
  obtain ⟨-, hmfits, hends⟩ := stands_of_split hgood hsplit
  -- the lexeme behind it is no word, since the name ends before it
  have hsame : m.within (some ' ') (textOf ahead).head? = m := by
    refine (blank_within_or_frees hmfits).resolve_right ?_
    rintro ⟨k', -, htext, -⟩
    rw [hk.1, htext, not_endsBefore_word] at hends
    cases hends
  obtain ⟨front, behind, hfront, hitems, hsaid⟩ := hk.said (said_source hfault hsplit)
  rw [← hk.within.1, ← hsame, ← said_spaced hgood hsplit] at hsaid
  obtain ⟨hnone, hspaced⟩ := said_eq_some_iff.1 hsaid
  exact ⟨hnone, front, behind, hfront, hitems, hspaced⟩

theorem tape_spaced_of_frees_right {k : Keyword}
    (hk : Frees k (textOf ahead).head? m l.text.getLast?) :
    (tape file (spacedText (done ++ [l]) (m :: ahead))).fault = none ∧
      ∃ front behind, said 0 (done ++ [l]) = some (front ++ [.eof]) ∧
        (tape file source).items = front ++ .ident k.text :: behind ∧
        (tape file (spacedText (done ++ [l]) (m :: ahead))).items =
          front ++ .keyword k :: behind := by
  have hgood := not_isBad_of_split hfault hsplit
  obtain ⟨hlfits, -, hends⟩ := stands_of_split hgood hsplit
  have hsame : l.within (textOf done).getLast? (some ' ') = l := by
    refine (within_blank_or_frees hlfits).resolve_right ?_
    rintro ⟨k', hcls, -⟩
    rw [hcls, hk.2.1, not_endsBefore_word] at hends
    cases hends
  have hsource := said_source hfault hsplit
  rw [List.append_cons] at hsource
  obtain ⟨front, behind, hfront, hitems, hsaid⟩ := hk.said hsource
  rw [← hk.within.2, ← List.append_cons] at hsaid
  nth_rewrite 1 [← hsame] at hsaid
  rw [← said_spaced hgood hsplit] at hsaid
  obtain ⟨hnone, hspaced⟩ := said_eq_some_iff.1 hsaid
  exact ⟨hnone, front, behind, hfront, hitems, hspaced⟩

end Tape

/-- **One more blank between two lexemes.**  The script still has a meaning, and its tokens are the
same ones; but if the blank cuts a word of the language off from a digit beside it, and the word is
free at its other end, then its token is that word instead of a name. -/
theorem tape_spaced (hfault : (tape file source).fault = none)
    (hsplit : lexemes source.toList = done ++ l :: m :: ahead) :
    let spaced := tape file (spacedText (done ++ [l]) (m :: ahead))
    spaced.fault = none ∧
    ((∀ k, ¬Frees k (textOf done).getLast? l m.text.head?) →
      (∀ k, ¬Frees k (textOf ahead).head? m l.text.getLast?) →
        spaced.items = (tape file source).items) ∧
    (∀ k, Frees k (textOf done).getLast? l m.text.head? → ∃ front behind,
      said 0 done = some (front ++ [.eof]) ∧
        (tape file source).items = front ++ .ident k.text :: behind ∧
        spaced.items = front ++ .keyword k :: behind) ∧
    (∀ k, Frees k (textOf ahead).head? m l.text.getLast? → ∃ front behind,
      said 0 (done ++ [l]) = some (front ++ [.eof]) ∧
        (tape file source).items = front ++ .ident k.text :: behind ∧
        spaced.items = front ++ .keyword k :: behind) := by
  refine ⟨?_, fun hl hm => (tape_spaced_of_not_frees hfault hsplit hl hm).2,
    fun k hk => (tape_spaced_of_frees_left hfault hsplit hk).2,
    fun k hk => (tape_spaced_of_frees_right hfault hsplit hk).2⟩
  by_cases hl : ∃ k, Frees k (textOf done).getLast? l m.text.head?
  · obtain ⟨k, hk⟩ := hl
    exact (tape_spaced_of_frees_left hfault hsplit hk).1
  by_cases hm : ∃ k, Frees k (textOf ahead).head? m l.text.getLast?
  · obtain ⟨k, hk⟩ := hm
    exact (tape_spaced_of_frees_right hfault hsplit hk).1
  · exact (tape_spaced_of_not_frees hfault hsplit (not_exists.1 hl) (not_exists.1 hm)).1

end Script

/-- A digit in front of a word of the language makes a name of it, and a blank between the two sets
it free. -/
theorem tape_spaced_digit :
    (tape none "1true").fault = none ∧
      lexemes "1true".toList = [⟨.whole, ['1']⟩, ⟨.ident, "true".toList⟩] ∧
      ∃ front behind, (tape none "1true").items = front ++ .ident "true" :: behind ∧
        (tape none (spacedText [⟨.whole, ['1']⟩] [⟨.ident, "true".toList⟩])).items =
          front ++ .keyword .trueWord :: behind := by
  have hfault : (tape none "1true").fault = none := by rfl
  have hsplit : lexemes "1true".toList = [⟨.whole, ['1']⟩, ⟨.ident, "true".toList⟩] := by decide
  obtain ⟨front, behind, -, hitems, hspaced⟩ :=
    (tape_spaced hfault (show lexemes "1true".toList = [] ++ _ :: _ :: [] from hsplit)).2.2.2
      .trueWord ⟨rfl, rfl, rfl, by decide⟩
  exact ⟨hfault, hsplit, front, behind, hitems, hspaced⟩

/-- The tokens of a script are not always the same with one more blank. -/
theorem items_spaced_ne :
    ¬∀ (source : String) (done ahead : List Lexeme) (l m : Lexeme),
      (tape none source).fault = none → lexemes source.toList = done ++ l :: m :: ahead →
        (tape none (spacedText (done ++ [l]) (m :: ahead))).items = (tape none source).items := by
  intro h
  have hsame := h "1true" [] [] ⟨.whole, ['1']⟩ ⟨.ident, "true".toList⟩ rfl (by decide)
  have hglued : (tape none "1true").items = [.number (.int 1), .ident "true", .eof] := rfl
  have hfree : (tape none (spacedText [⟨.whole, ['1']⟩] [⟨.ident, "true".toList⟩])).items =
      [.number (.int 1), .keyword .trueWord, .eof] := rfl
  rw [List.nil_append, hglued, hfree] at hsame
  simp at hsame

end TriggerEngine
