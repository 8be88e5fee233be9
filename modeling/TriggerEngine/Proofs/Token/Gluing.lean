/-
**Words glued to numbers.**

A word of the language counts as one only where it stands free; elsewhere it is a name that is
written like the word.  What it can be glued to is little.  The text in front of it ends a lexeme,
and so does the word itself, and of all lexemes only numbers can end or start with a character that
is part of a word without being part of that name.  So a name that is written like a word of the
language has a number right beside it, in the text and among the tokens.

Main definitions:

* `IsVariable` — names that are not words of the language;
* `Sole` — what holds of the names in a row of items that have no number right beside them.

Main results:

* `Stands.isNumeral_of_word`, `Stands.of_word_last` — lexemes to which a name can be glued;
* `sole_of_said` — **a name without a number beside it is no word of the language**.
-/

import TriggerEngine.Proofs.Token.Spacing

set_option autoImplicit false

namespace TriggerEngine

open Text

/-! ### Names -/

/-- A name that is no word of the language. -/
def IsVariable (name : String) : Prop :=
  IsName name ∧ ∀ k : Keyword, name ≠ k.text

/-! ### What a name can be glued to -/

/-- Whether the lexemes of a class are numbers. -/
def LexemeClass.isNumeral : LexemeClass → Bool
  | .whole => true
  | .decimal => true
  | _ => false

theorem getLast?_of_commentLength {body : List Char} (h : commentLength body = some body.length) :
    body.getLast? = some '/' := by
  fun_induction commentLength body with
  | case1 cs =>
      obtain rfl : cs = [] := by simpa using h
      rfl
  | case2 c cs _ ih =>
      have hcs : commentLength cs = some cs.length := by simpa using h
      rw [List.getLast?_cons, ih hcs]
      rfl
  | case3 => cases h

theorem not_isWord_symbol (s : Symbol) :
    s.text.toList.head?.any isWord = false ∧ s.text.toList.getLast?.any isWord = false := by
  cases s <;> decide

theorem not_isWord_last {p : Char → Bool} {row : List Char} (hrow : ∀ c ∈ row, p c = true)
    (hp : ∀ c, p c = true → isWord c = false) : row.getLast?.any isWord = false := by
  cases hlast : row.getLast? with
  | none => rfl
  | some c => exact hp c (hrow c (List.mem_of_getLast? hlast))

theorem not_isWord_of_isSpacing (c : Char) (h : isSpacing c = true) : isWord c = false := by
  have hcases : c = ' ' ∨ c = '\t' ∨ c = '\r' := by simpa [isSpacing, or_assoc] using h
  rcases hcases with rfl | rfl | rfl <;> decide

section Stands

variable {before : Option Char} {cls : LexemeClass} {text rest : List Char}

theorem Stands.of_word_last (h : Stands before cls text rest) (hgood : cls.isBad = false)
    (hlast : text.getLast?.any isWord = true) (hrest : rest.head?.any startsName = true) :
    cls.isNumeral = true := by
  have hword : rest.head?.any isAsciiWord = true := by
    cases hhead : rest.head? with
    | none => simp [hhead] at hrest
    | some c =>
        rw [hhead] at hrest
        exact (Bool.and_eq_true_iff.1 hrest).1
  have hends := h.ends hgood
  cases h.spelled with
  | whole => rfl
  | decimal => rfl
  | blockComment hbody =>
      rw [List.getLast?_cons, List.getLast?_cons, getLast?_of_commentLength hbody] at hlast
      cases hlast
  | lineComment =>
      cases hhead : rest.head? with
      | none => simp [hhead] at hrest
      | some c =>
          obtain rfl : c = '\n' := by simpa [LexemeClass.endsBefore, hhead] using hends
          rw [hhead] at hrest
          cases hrest
  | string hmark =>
      rw [List.getLast?_cons, List.getLast?_concat] at hlast
      rcases hmark with rfl | rfl <;> exact absurd hlast (by decide)
  | keyword => simp [LexemeClass.endsBefore, hword] at hends
  | ident => simp [LexemeClass.endsBefore, hword] at hends
  | symbol s => simp [(not_isWord_symbol s).2] at hlast
  | newline => exact absurd hlast (by decide)
  | blank hc hblanks =>
      have hnot := not_isWord_last (List.forall_mem_cons.2 ⟨hc, hblanks⟩) not_isWord_of_isSpacing
      simp [hnot] at hlast
  | openComment | openString | stray => cases hgood

theorem Stands.isNumeral_of_word (h : Stands before cls text rest) (hgood : cls.isBad = false)
    (hfirst : text.head?.any isWord = true) (hname : text.head?.any isAsciiWord = false) :
    cls.isNumeral = true := by
  cases h.spelled with
  | whole => rfl
  | decimal => rfl
  | blockComment => cases hfirst
  | lineComment => cases hfirst
  | string hmark => rcases hmark with rfl | rfl <;> cases hfirst
  | keyword k =>
      obtain ⟨c, word, hk, hc, -⟩ := k.name
      rw [hk, List.head?_cons, Option.any_some, (Bool.and_eq_true_iff.1 hc).1] at hname
      cases hname
  | ident hc =>
      rw [List.head?_cons, Option.any_some, (Bool.and_eq_true_iff.1 hc).1] at hname
      cases hname
  | symbol s => simp [(not_isWord_symbol s).1] at hfirst
  | newline => cases hfirst
  | blank hc => simp [not_isWord_of_isSpacing _ hc] at hfirst
  | openComment | openString | stray => cases hgood

end Stands

/-! ### Names beside numbers -/

/-- Whether a neighbour is a number. -/
def isNumeral (neighbour : Option Item) : Bool :=
  neighbour.any (·.is .number)

/-- Whether all names in a row of items that have no number right beside them are of some kind; the
row itself has two neighbours. -/
def Sole (P : String → Prop) : Option Item → List Item → Option Item → Prop
  | _, [], _ => True
  | before, item :: rest, after =>
    (∀ name, item = .ident name → isNumeral before = false →
      isNumeral (rest.head?.or after) = false → P name) ∧ Sole P (some item) rest after

theorem Stands.isVariable {before : Option Char} {text rest : List Char} {ls : List Lexeme}
    (h : Stands before .ident text rest) (hrest : Tiles text.getLast? rest ls)
    (hbefore : before.any isWord = false)
    (hnext : ∀ l ∈ ls.head?, l.cls.isNumeral = false ∧ l.cls.isBad = false) :
    IsVariable (String.ofList text) := by
  refine ⟨isName_of_spelled h.spelled, fun k hk => ?_⟩
  obtain rfl : text = k.text.toList := by rw [← hk, String.toList_ofList]
  have hfits : wordClass before k.text.toList rest.head? = .ident := h.fits
  rw [wordClass_text, isBoundary, hbefore, Bool.not_false, Bool.true_and] at hfits
  -- a word of the language that is none here goes on, and not as a name does
  cases hword : rest.head?.any isWord with
  | false => simp [isBoundary, hword] at hfits
  | true =>
      have hname : rest.head?.any isAsciiWord = false := by
        simpa [LexemeClass.endsBefore] using h.ends rfl
      cases ls with
      | nil =>
          cases hrest
          cases hword
      | cons l ls =>
          obtain ⟨hnumeral, hgood⟩ := hnext l rfl
          obtain ⟨behind, rfl, hl, -⟩ := hrest.uncons
          obtain ⟨c, more, htext⟩ := List.exists_cons_of_ne_nil hl.spelled.ne_nil
          rw [htext, List.cons_append, List.head?_cons] at hword hname
          rw [hl.isNumeral_of_word hgood (by rw [htext]; exact hword) (by rw [htext]; exact hname)]
            at hnumeral
          cases hnumeral

theorem Lexeme.item?_of_isNumeral {l : Lexeme} (h : l.cls.isNumeral = true)
    (hok : ¬l.isBroken = true) (brackets : Nat) : ∃ n, l.item? brackets = [.number n] := by
  unfold Lexeme.item? Lexeme.read
  cases hcls : l.cls with
  | decimal => exact ⟨_, rfl⟩
  | whole =>
      have hdigits : l.text.length ≤ Number.maxDigits := by
        simpa [Lexeme.isBroken, LexemeClass.isBad, hcls] using hok
      simp [readWhole, hdigits]
  | _ => simp [hcls, LexemeClass.isNumeral] at h

theorem Lexeme.item?_cases (l : Lexeme) (brackets : Nat) :
    l.item? brackets = [] ∨ ∃ item, l.item? brackets = [item] ∧
      ∀ name, item = .ident name → l.cls = .ident ∧ name = String.ofList l.text := by
  unfold Lexeme.item?
  cases hread : l.read none .start brackets with
  | nothing => exact .inl rfl
  | fault fault => exact .inl rfl
  | item item =>
      refine .inr ⟨item, rfl, ?_⟩
      rintro name rfl
      unfold Lexeme.read at hread
      cases hcls : l.cls <;> simp_all [readWhole] <;> split at hread <;> cases hread

theorem head_of_said {ls : List Lexeme} {brackets : Nat} {items : List Item}
    (h : said brackets ls = some items) (hnot : isNumeral items.head? = false) :
    ∀ l ∈ ls.head?, l.cls.isNumeral = false ∧ l.cls.isBad = false := by
  cases ls with
  | nil => simp
  | cons l ls =>
      rintro _ ⟨⟩
      rw [said] at h
      split at h
      · cases h
      rename_i hok
      refine ⟨?_, by simp_all [Lexeme.isBroken]⟩
      by_contra hnumeral
      obtain ⟨n, hitem⟩ := Lexeme.item?_of_isNumeral (by simpa using hnumeral) hok brackets
      obtain ⟨behind, -, rfl⟩ := Option.map_eq_some_iff.1 h
      rw [hitem] at hnot
      cases hnot

/-- **A name without a number beside it is no word of the language.** -/
theorem sole_of_said {ls : List Lexeme} {before : Option Char} {cs : List Char} {brackets : Nat}
    {items : List Item} {previous : Option Item} (h : Tiles before cs ls)
    (hsaid : said brackets ls = some items)
    (hglued : before.any isWord = true → cs.head?.any startsName = true →
      isNumeral previous = true) :
    Sole IsVariable previous items none := by
  induction ls generalizing before cs brackets items previous with
  | nil =>
      obtain rfl : [Item.eof] = items := Option.some.inj hsaid
      exact ⟨nofun, trivial⟩
  | cons l ls ih =>
      rw [said] at hsaid
      split at hsaid
      · cases hsaid
      rename_i hok
      have hgood : l.cls.isBad = false := by simp_all [Lexeme.isBroken]
      obtain ⟨behind, hbehind, rfl⟩ := Option.map_eq_some_iff.1 hsaid
      obtain ⟨rest, rfl, hl, htiles⟩ := h.uncons
      have hrest := htiles hgood
      have hnext : ∀ previous, (l.cls.isNumeral = true → isNumeral previous = true) →
          Sole IsVariable previous behind none := fun _ hnumeral =>
        ih hrest hbehind fun hlast hhead => hnumeral (hl.of_word_last hgood hlast hhead)
      rcases l.item?_cases brackets with hitem | ⟨item, hitem, hname⟩
      · rw [hitem]
        refine hnext _ fun hnumeral => ?_
        obtain ⟨n, hnumber⟩ := Lexeme.item?_of_isNumeral hnumeral hok brackets
        simp [hitem] at hnumber
      · rw [hitem]
        refine ⟨fun name hident hbefore hafter => ?_, hnext _ fun hnumeral => ?_⟩
        · obtain ⟨hcls, rfl⟩ := hname name hident
          rw [hcls] at hl
          refine hl.isVariable hrest ?_ (head_of_said hbehind (by simpa using hafter))
          rw [← Bool.not_eq_true]
          intro hword
          have hstart : (l.text ++ rest).head?.any startsName = true := by
            generalize l.text = text at hl
            cases hl.spelled with
            | ident hc => exact hc
          simp [hglued hword hstart] at hbefore
        · obtain ⟨n, hnumber⟩ := Lexeme.item?_of_isNumeral hnumeral hok brackets
          obtain ⟨rfl, -⟩ := List.cons.inj (hitem.symm.trans hnumber)
          rfl

end TriggerEngine
