/-
**How lexemes are written.**

What a lexeme of a class looks like can be said without its surroundings: a whole number is a row of
digits, a name starts with a letter, and so on.  What stands behind it matters only in that it must
not make the lexeme longer, and what stands on its two sides only in that a word of the language
counts as one between characters that cannot be part of a word.  These three facts are all there is
to a lexeme: it has them, and text that has them is recognised.

So a lexeme stays what it is in other surroundings, provided that the character behind it does not
make it longer; only a word may change between a word of the language and a name.

Main definitions:

* `Spelled` — the characters of the lexemes of a class;
* `LexemeClass.endsBefore` — whether a lexeme does not go on into the text behind it;
* `LexemeClass.within` — the class of a lexeme between two neighbours;
* `Stands` — a lexeme is spelled, ends and fits where it is.

Main results:

* `stands_of_recognise`, `recognise_of_spelled` — lexemes are what is spelled, ends and fits;
* `Tiles.uncons`, `Tiles.cons_spelled` — the same of the first lexeme of a text;
* `Spelled.of_newline_mem` — where line feeds stand.
-/

import TriggerEngine.Proofs.Token.Joining

set_option autoImplicit false

namespace TriggerEngine

open Text

/-! ### Spellings -/

/-- How the lexemes of a class are written. -/
inductive Spelled : LexemeClass → List Char → Prop
  | blockComment {body : List Char} : commentLength body = some body.length →
      Spelled .blockComment ('/' :: '*' :: body)
  | openComment : Spelled .openComment ['/', '*']
  | lineComment {body : List Char} : '\n' ∉ body → Spelled .lineComment ('/' :: '/' :: body)
  | whole {c : Char} {digits : List Char} : isDecimal c = true →
      (∀ d ∈ digits, isDecimal d = true) → Spelled .whole (c :: digits)
  | decimal {c p : Char} {digits places : List Char} : isDecimal c = true →
      (∀ d ∈ digits, isDecimal d = true) → (∀ d ∈ p :: places, isDecimal d = true) →
      Spelled .decimal (c :: (digits ++ '.' :: p :: places))
  | string {mark : Char} {body : List Char} : mark = '"' ∨ mark = '\'' →
      Literal.bodyLength mark (body ++ [mark]) = body.length →
      Spelled .string (mark :: (body ++ [mark]))
  | openString {mark : Char} {body : List Char} : mark = '"' ∨ mark = '\'' → '\n' ∉ body →
      Spelled .openString (mark :: body)
  | keyword (k : Keyword) : Spelled (.keyword k) k.text.toList
  | ident {c : Char} {word : List Char} : startsName c = true →
      (∀ d ∈ word, isAsciiWord d = true) → Spelled .ident (c :: word)
  | symbol (s : Symbol) : Spelled (.symbol s) s.text.toList
  | newline : Spelled .newline ['\n']
  | blank {c : Char} {blanks : List Char} : isSpacing c = true →
      (∀ d ∈ blanks, isSpacing d = true) → Spelled .blank (c :: blanks)
  | stray {c : Char} : c ≠ '\n' → (∀ s : Symbol, s.text.toList ≠ [c]) → Spelled .stray [c]

/-- What can be the name of something: a letter or underscore, and then letters, digits and
underscores. -/
def IsName (s : String) : Prop :=
  ∃ c word, s.toList = c :: word ∧ startsName c = true ∧ ∀ d ∈ word, isAsciiWord d = true

theorem isName_of_spelled {text : List Char} (h : Spelled .ident text) :
    IsName (String.ofList text) := by
  cases h with
  | ident hc hword => exact ⟨_, _, String.toList_ofList, hc, hword⟩

/-- Whether a character makes a longer mark, or a comment, of a mark in front of it. -/
def Symbol.growsBy : Symbol → Char → Bool
  | .assign, c => c == '='
  | .gt, c => c == '='
  | .lt, c => c == '='
  | .dot, c => c == '.'
  | .div, c => c == '/' || c == '*'
  | _, _ => false

/-- Whether a lexeme of a class does not go on into the text behind it. -/
def LexemeClass.endsBefore : LexemeClass → List Char → Bool
  | .blockComment, _ => true
  | .lineComment, rest => rest.head?.all (· == '\n')
  | .decimal, rest => !rest.head?.any isDecimal
  | .whole, rest => !rest.head?.any isDecimal &&
      !(rest.head? == some '.' && (rest.drop 1).head?.any isDecimal)
  | .string, _ => true
  | .keyword _, rest => !rest.head?.any isAsciiWord
  | .ident, rest => !rest.head?.any isAsciiWord
  | .symbol s, rest => !rest.head?.any s.growsBy
  | .newline, _ => true
  | .blank, rest => !rest.head?.any isSpacing
  | .openComment, _ => false
  | .openString, _ => false
  | .stray, _ => false

/-- The class of a lexeme between two neighbours: a word of the language is one only there where it
is free. -/
def LexemeClass.within (before : Option Char) (text : List Char) (after : Option Char) :
    LexemeClass → LexemeClass
  | .keyword _ => wordClass before text after
  | .ident => wordClass before text after
  | cls => cls

/-! ### Rows of characters -/

theorem takeWhile_append_stop {p : Char → Bool} {body rest : List Char}
    (hbody : ∀ c ∈ body, p c = true) (hrest : rest.head?.any p = false) :
    (body ++ rest).takeWhile p = body := by
  rw [List.takeWhile_append_of_pos hbody]
  cases rest with
  | nil => simp
  | cons c rest => simp [show p c = false from hrest]

theorem exists_row (p : Char → Bool) (cs : List Char) :
    ∃ row rest, cs = row ++ rest ∧ (∀ c ∈ row, p c = true) ∧ rest.head?.any p = false := by
  induction cs with
  | nil => exact ⟨[], [], rfl, nofun, rfl⟩
  | cons c cs ih =>
      cases hc : p c with
      | false => exact ⟨[], c :: cs, rfl, nofun, hc⟩
      | true =>
          obtain ⟨row, rest, rfl, hrow, hrest⟩ := ih
          exact ⟨c :: row, rest, rfl, List.forall_mem_cons.2 ⟨hc, hrow⟩, hrest⟩

theorem length_takeWhile_ne_zero (p : Char → Bool) (cs : List Char) :
    ((cs.takeWhile p).length != 0) = cs.head?.any p := by
  cases cs with
  | nil => rfl
  | cons c cs => cases hc : p c <;> simp [hc]

theorem newline_not_mem_body (mark : Char) (cs : List Char) :
    '\n' ∉ cs.take (Literal.bodyLength mark cs) := by
  fun_induction Literal.bodyLength mark cs with
  | case1 | case3 | case5 => simp
  | case2 c cs hc ih | case4 c cs _ hc ih =>
      have hne : '\n' ≠ c := by
        rintro rfl
        simp at hc
      simpa [hne] using ih

/-! ### Marks -/

theorem symbolAt?_append {s : Symbol} (rest : List Char) (h : rest.head?.any s.growsBy = false) :
    symbolAt? (s.text.toList ++ rest) = some s := by
  cases rest with
  | nil => cases s <;> decide
  | cons c rest =>
      have hgrow : s.growsBy c = false := h
      cases s with
      | gt | lt | assign | dot =>
          have hne := Ne.symm (by simpa [Symbol.growsBy] using hgrow)
          simp [symbolAt?, Symbol.all, Symbol.text, List.isPrefixOf, hne]
      | _ => rfl

theorem endsBefore_of_symbolAt? {cs : List Char} {s : Symbol} (h : symbolAt? cs = some s) :
    ∃ rest, cs = s.text.toList ++ rest ∧ (s = .div ∨ rest.head?.any s.growsBy = false) := by
  have hprefix := List.find?_some h
  obtain ⟨rest, hrest⟩ := List.isPrefixOf_iff_prefix.1 hprefix
  refine ⟨rest, hrest.symm, ?_⟩
  subst hrest
  cases rest with
  | nil => exact .inr rfl
  | cons c rest =>
      cases s with
      | div => exact .inl rfl
      | gt | lt | assign | dot =>
          refine .inr (Bool.eq_false_iff.2 fun hgrow => ?_)
          obtain rfl := by simpa [Symbol.growsBy] using hgrow
          simp [symbolAt?, Symbol.all, Symbol.text, List.isPrefixOf] at h
      | _ => exact .inr rfl

/-! ### The first character -/

theorem toNat_lt_of_isAsciiWord {c : Char} (h : isAsciiWord c = true) : c.toNat < 128 := by
  simp only [isAsciiWord, Char.isAlphanum, Char.isAlpha, Char.isUpper, Char.isLower, Char.isDigit,
    Bool.or_eq_true, Bool.and_eq_true, decide_eq_true_eq, beq_iff_eq] at h
  rcases h with ((h | h) | h) | rfl
  · exact Nat.lt_of_le_of_lt (UInt32.le_iff_toNat_le.1 h.2) (by decide)
  · exact Nat.lt_of_le_of_lt (UInt32.le_iff_toNat_le.1 h.2) (by decide)
  · exact Nat.lt_of_le_of_lt (UInt32.le_iff_toNat_le.1 h.2) (by decide)
  · decide

theorem not_isDecimal_of_startsName {c : Char} (h : startsName c = true) : isDecimal c = false := by
  obtain ⟨hword, hdigit⟩ := Bool.and_eq_true_iff.1 h
  have hdigit' : c.isDigit = false := by simpa using hdigit
  simp [isDecimal, digitValue, toNat_lt_of_isAsciiWord hword, hdigit']

section FirstCharacter

variable (before : Option Char) {c : Char} (cs : List Char)

theorem recognise_digit (hc : isDecimal c = true) :
    recognise before c cs =
      if (cs.drop (cs.takeWhile isDecimal).length).head? == some '.' &&
          ((cs.drop ((cs.takeWhile isDecimal).length + 1)).takeWhile isDecimal).length != 0 then
        (.decimal, (cs.takeWhile isDecimal).length + 1 +
          ((cs.drop ((cs.takeWhile isDecimal).length + 1)).takeWhile isDecimal).length)
      else (.whole, (cs.takeWhile isDecimal).length) := by
  have hslash : c ≠ '/' := by
    rintro rfl
    exact absurd hc (by decide)
  simp [recognise, hslash, hc]

theorem recognise_quote (hc : c = '"' ∨ c = '\'') :
    recognise before c cs =
      if (cs.drop (Literal.bodyLength c cs)).head? == some c then
        (.string, Literal.bodyLength c cs + 1)
      else (.openString, Literal.bodyLength c cs) := by
  have hdigit : isDecimal c = false := by rcases hc with rfl | rfl <;> decide
  have hslash : c ≠ '/' := by rcases hc with rfl | rfl <;> decide
  simp [recognise, hslash, hdigit, hc]

theorem recognise_name (hc : startsName c = true) :
    recognise before c cs =
      (wordClass before (c :: cs.take (cs.takeWhile isAsciiWord).length)
        (cs.drop (cs.takeWhile isAsciiWord).length).head?, (cs.takeWhile isAsciiWord).length) := by
  have hne : ∀ d, startsName d = false → c ≠ d := by
    rintro d hd rfl
    simp [hc] at hd
  simp [recognise, hne '/' (by decide), hne '"' (by decide), hne '\'' (by decide),
    not_isDecimal_of_startsName hc, hc]

theorem recognise_blank (hc : isSpacing c = true) :
    recognise before c cs = (.blank, (cs.takeWhile isSpacing).length) := by
  have hcases : c = ' ' ∨ c = '\t' ∨ c = '\r' := by
    simpa [isSpacing, or_assoc] using hc
  rcases hcases with rfl | rfl | rfl <;> rfl

theorem Symbol.first {s : Symbol} {tail : List Char} (h : s.text.toList = c :: tail) :
    isDecimal c = false ∧ (c == '"' || c == '\'') = false ∧ startsName c = false ∧
      (c == '\n') = false ∧ isSpacing c = false ∧ (c = '/' → s = .div ∧ tail = []) := by
  cases s <;> (obtain ⟨rfl, rfl⟩ := List.cons.inj h; decide)

theorem recognise_mark {s : Symbol} {tail rest : List Char} (hs : s.text.toList = c :: tail)
    (hends : rest.head?.any s.growsBy = false) :
    recognise before c (tail ++ rest) = (.symbol s, tail.length) := by
  obtain ⟨hdigit, hquote, hname, hfeed, hblank, hslash⟩ := Symbol.first hs
  have hsymbol : symbolAt? (c :: (tail ++ rest)) = some s := by
    rw [← List.cons_append, ← hs, symbolAt?_append _ hends]
  have hlength : s.text.length - 1 = tail.length := by
    rw [← String.length_toList, hs, List.length_cons, Nat.add_sub_cancel]
  -- a slash does not start a comment, since the next character does not make one of it
  have hcomment : ∀ d, d = '*' ∨ d = '/' → (c == '/' && (tail ++ rest).head? == some d) = false := by
    intro d hd
    refine Bool.eq_false_iff.2 fun hboth => ?_
    obtain ⟨hc, hhead⟩ : c = '/' ∧ (tail ++ rest).head? = some d := by simpa using hboth
    obtain ⟨rfl, rfl⟩ := hslash hc
    rw [List.nil_append] at hhead
    rcases hd with rfl | rfl <;> simp [hhead, Symbol.growsBy] at hends
  simp only [recognise, hcomment '*' (.inl rfl), hcomment '/' (.inr rfl), hdigit, hquote, hname,
    hfeed, hblank, hsymbol, hlength, Bool.false_eq_true, if_false]

end FirstCharacter

/-! ### Lexemes and spellings -/

theorem Keyword.name (k : Keyword) : ∃ c word, k.text.toList = c :: word ∧ startsName c = true ∧
    ∀ d ∈ word, isAsciiWord d = true := by
  have h : (k.text.toList.head?.any startsName && k.text.toList.tail.all isAsciiWord) = true := by
    cases k <;> decide
  cases hk : k.text.toList with
  | nil => simp [hk] at h
  | cons c word => exact ⟨c, word, rfl, by simpa [hk] using h⟩

theorem recognise_word {before : Option Char} {c : Char} {word rest : List Char}
    (hc : startsName c = true) (hword : ∀ d ∈ word, isAsciiWord d = true)
    (hends : rest.head?.any isAsciiWord = false) :
    recognise before c (word ++ rest) =
      (wordClass before (c :: word) rest.head?, word.length) := by
  rw [recognise_name _ _ hc, takeWhile_append_stop hword hends, List.take_left, List.drop_left]

/-- **What is spelled like a lexeme and does not go on is recognised**, as a lexeme of the class
that it has between its neighbours. -/
theorem recognise_of_spelled (before : Option Char) {c : Char} {text rest : List Char}
    {cls : LexemeClass} (h : Spelled cls (c :: text)) (hends : cls.endsBefore rest = true) :
    recognise before c (text ++ rest) =
      (cls.within before (c :: text) rest.head?, text.length) := by
  generalize hspelled : c :: text = spelled at h
  cases h with
  | blockComment hbody =>
      obtain ⟨rfl, rfl⟩ := List.cons.inj hspelled
      simp [recognise, commentLength_append _ hbody, LexemeClass.within]
  | openComment => cases hends
  | lineComment hbody =>
      obtain ⟨rfl, rfl⟩ := List.cons.inj hspelled
      rename_i body
      have hfeed : rest.head?.any (· != '\n') = false := by
        cases rest with
        | nil => rfl
        | cons d rest => simpa [LexemeClass.endsBefore] using hends
      have hrow : (('/' :: body) ++ rest).takeWhile (· != '\n') = '/' :: body := by
        refine takeWhile_append_stop (fun d hd => ?_) hfeed
        rcases List.mem_cons.1 hd with rfl | hd
        · decide
        · exact bne_iff_ne.2 fun heq => hbody (heq ▸ hd)
      simp only [recognise, hrow]
      rfl
  | whole hc hdigits =>
      obtain ⟨rfl, rfl⟩ := List.cons.inj hspelled
      obtain ⟨hdigit, hpoint⟩ := Bool.and_eq_true_iff.1 hends
      rw [recognise_digit _ _ hc, takeWhile_append_stop hdigits (by simpa using hdigit),
        ← List.drop_drop, List.drop_left, length_takeWhile_ne_zero, if_neg]
      · rfl
      · rwa [Bool.not_eq_true', ← Bool.not_eq_true] at hpoint
  | decimal hc hdigits hplaces =>
      -- the first row of digits stops at the point, the second one where `rest` starts
      obtain ⟨rfl, rfl⟩ := List.cons.inj hspelled
      rename_i p digits places
      have hpoint : (digits ++ '.' :: p :: places ++ rest).takeWhile isDecimal = digits := by
        rw [List.append_assoc]
        exact takeWhile_append_stop hdigits rfl
      have hrow : (p :: places ++ rest).takeWhile isDecimal = p :: places :=
        takeWhile_append_stop hplaces (by simpa [LexemeClass.endsBefore] using hends)
      have hdrop : (digits ++ '.' :: p :: places ++ rest).drop (digits.length + 1) =
          p :: places ++ rest := by
        rw [List.append_assoc, ← List.drop_drop, List.drop_left]
        rfl
      rw [recognise_digit _ _ hc, hpoint, hdrop, hrow, List.append_assoc, List.drop_left, if_pos]
      · simp [LexemeClass.within]
        omega
      · simp
  | string hmark hbody =>
      obtain ⟨rfl, rfl⟩ := List.cons.inj hspelled
      rename_i body
      have hback : c ≠ '\\' := by
        rintro rfl
        simp at hmark
      have hlength : Literal.bodyLength c (body ++ [c] ++ rest) = body.length := by
        rw [bodyLength_append _ hback (by simp [hbody]), hbody]
      rw [recognise_quote _ _ hmark, hlength, List.append_assoc, List.drop_left, if_pos (by simp)]
      simp [LexemeClass.within]
  | openString => cases hends
  | keyword k =>
      obtain ⟨d, word, hk, hd, hword⟩ := k.name
      obtain ⟨rfl, rfl⟩ := List.cons.inj (hspelled.trans hk)
      rw [recognise_word hd hword (by simpa [LexemeClass.endsBefore] using hends), ← hk]
      rfl
  | ident hc hword =>
      obtain ⟨rfl, rfl⟩ := List.cons.inj hspelled
      exact recognise_word hc hword (by simpa [LexemeClass.endsBefore] using hends)
  | symbol s =>
      exact recognise_mark before hspelled.symm (by simpa [LexemeClass.endsBefore] using hends)
  | newline =>
      obtain ⟨rfl, rfl⟩ := List.cons.inj hspelled
      rfl
  | blank hc hblanks =>
      obtain ⟨rfl, rfl⟩ := List.cons.inj hspelled
      rw [recognise_blank _ _ hc, takeWhile_append_stop hblanks
        (by simpa [LexemeClass.endsBefore] using hends)]
      rfl
  | stray => cases hends

/-- A lexeme at its place: it is spelled as its class says, does not go on behind its end unless it
is bad, and has the class that it has between its neighbours. -/
structure Stands (before : Option Char) (cls : LexemeClass) (text rest : List Char) : Prop where
  /-- It is spelled as its class says. -/
  spelled : Spelled cls text
  /-- It does not go on. -/
  ends : cls.isBad = false → cls.endsBefore rest = true
  /-- Its class is the one that it has here. -/
  fits : cls.within before text rest.head? = cls

theorem wordClass_cases (before : Option Char) (word : List Char) (after : Option Char) :
    wordClass before word after = .ident ∨
      ∃ k : Keyword, wordClass before word after = .keyword k ∧ word = k.text.toList := by
  unfold wordClass
  split
  · rename_i k hk
    have htext : k.text = String.ofList word := by simpa using List.find?_some hk
    split
    · exact .inr ⟨k, rfl, by rw [htext, String.toList_ofList]⟩
    · exact .inl rfl
  · exact .inl rfl

section Stands

variable {before : Option Char} {c : Char} {cs : List Char} {cls : LexemeClass} {tail : Nat}

theorem stands_digit (hc : isDecimal c = true) (h : recognise before c cs = (cls, tail)) :
    Stands before cls (c :: cs.take tail) (cs.drop tail) := by
  obtain ⟨digits, rest, rfl, hdigits, hrest⟩ := exists_row isDecimal cs
  rw [recognise_digit _ _ hc, takeWhile_append_stop hdigits hrest, ← List.drop_drop,
    List.drop_left, length_takeWhile_ne_zero] at h
  split at h
  · rename_i hpoint
    obtain ⟨hhead, hany⟩ := Bool.and_eq_true_iff.1 hpoint
    obtain ⟨rest, rfl⟩ := List.head?_eq_some_iff.1 (beq_iff_eq.1 hhead)
    rw [List.drop_succ_cons, List.drop_zero] at h hany
    obtain ⟨places, rest, rfl, hplaces, hends⟩ := exists_row isDecimal rest
    rw [takeWhile_append_stop hplaces hends] at h
    obtain ⟨rfl, rfl⟩ := Prod.mk.inj h
    cases places with
    | nil => simp [hends] at hany
    | cons p places =>
        have htext : digits ++ '.' :: (p :: places ++ rest) =
            (digits ++ '.' :: p :: places) ++ rest := by simp
        have hlength : digits.length + 1 + (p :: places).length =
            (digits ++ '.' :: p :: places).length := by
          simp
          omega
        rw [htext, hlength, List.take_left, List.drop_left]
        exact ⟨.decimal hc hdigits hplaces, fun _ => by rw [LexemeClass.endsBefore, hends]; rfl, rfl⟩
  · rename_i hpoint
    obtain ⟨rfl, rfl⟩ := Prod.mk.inj h
    rw [List.take_left, List.drop_left]
    refine ⟨.whole hc hdigits, fun _ => Bool.and_eq_true_iff.2 ⟨?_, ?_⟩, rfl⟩
    · rw [hrest]
      rfl
    · rwa [Bool.not_eq_true', ← Bool.not_eq_true]

theorem stands_quote (hc : c = '"' ∨ c = '\'') (h : recognise before c cs = (cls, tail)) :
    Stands before cls (c :: cs.take tail) (cs.drop tail) := by
  have hback : c ≠ '\\' := by
    rintro rfl
    simp at hc
  rw [recognise_quote _ _ hc] at h
  split at h
  · rename_i hclosed
    obtain ⟨rfl, rfl⟩ := Prod.mk.inj h
    have hhead := beq_iff_eq.1 hclosed
    have htake : cs.take (Literal.bodyLength c cs + 1) =
        cs.take (Literal.bodyLength c cs) ++ [c] := by
      rw [List.take_add_one, ← List.head?_drop, hhead]
      rfl
    rw [htake]
    refine ⟨.string hc ?_, fun _ => rfl, rfl⟩
    rw [bodyLength_take_append [] hback hhead, List.length_take_of_le (Literal.bodyLength_le c cs)]
  · obtain ⟨rfl, rfl⟩ := Prod.mk.inj h
    exact ⟨.openString hc (newline_not_mem_body c cs), nofun, rfl⟩

theorem stands_name (hc : startsName c = true) (h : recognise before c cs = (cls, tail)) :
    Stands before cls (c :: cs.take tail) (cs.drop tail) := by
  obtain ⟨word, rest, rfl, hword, hrest⟩ := exists_row isAsciiWord cs
  rw [recognise_word hc hword hrest] at h
  obtain ⟨rfl, rfl⟩ := Prod.mk.inj h
  rw [List.take_left, List.drop_left]
  rcases wordClass_cases before (c :: word) rest.head? with hcls | ⟨k, hcls, hk⟩
  · rw [hcls]
    exact ⟨.ident hc hword, fun _ => by rw [LexemeClass.endsBefore, hrest]; rfl, hcls⟩
  · rw [hcls, hk]
    exact ⟨.keyword k, fun _ => by rw [LexemeClass.endsBefore, hrest]; rfl, hk ▸ hcls⟩

theorem stands_mark {s : Symbol} (hs : symbolAt? (c :: cs) = some s)
    (hopen : ¬(c == '/' && cs.head? == some '*') = true)
    (hline : ¬(c == '/' && cs.head? == some '/') = true) :
    Stands before (.symbol s) (c :: cs.take (s.text.length - 1)) (cs.drop (s.text.length - 1)) := by
  obtain ⟨rest, hcs, hends⟩ := endsBefore_of_symbolAt? hs
  obtain ⟨tail, htext, rfl⟩ : ∃ tail, s.text.toList = c :: tail ∧ cs = tail ++ rest := by
    cases htext : s.text.toList with
    | nil => exact absurd htext (by cases s <;> decide)
    | cons d tail =>
        rw [htext, List.cons_append] at hcs
        obtain ⟨rfl, rfl⟩ := List.cons.inj hcs
        exact ⟨tail, rfl, rfl⟩
  have hlength : s.text.length - 1 = tail.length := by
    rw [← String.length_toList, htext, List.length_cons, Nat.add_sub_cancel]
  rw [hlength, List.take_left, List.drop_left, ← htext]
  refine ⟨.symbol s, fun _ => ?_, rfl⟩
  rw [LexemeClass.endsBefore, Bool.not_eq_true']
  rcases hends with rfl | hends
  · -- a slash in front of a star or a slash starts a comment
    obtain ⟨rfl, rfl⟩ : '/' = c ∧ [] = tail := List.cons.inj htext
    cases rest with
    | nil => rfl
    | cons d rest =>
        have hstar : d ≠ '*' := by simpa using hopen
        have hslash : d ≠ '/' := by simpa using hline
        simp [Symbol.growsBy, hstar, hslash]
  · exact hends

end Stands

/-- **A lexeme stands at its place.** -/
theorem stands_of_recognise {before : Option Char} {c : Char} {cs : List Char} {cls : LexemeClass}
    {tail : Nat} (h : recognise before c cs = (cls, tail)) :
    Stands before cls (c :: cs.take tail) (cs.drop tail) := by
  by_cases hdigit : isDecimal c = true
  · exact stands_digit hdigit h
  by_cases hquote : c = '"' ∨ c = '\''
  · exact stands_quote hquote h
  by_cases hname : startsName c = true
  · exact stands_name hname h
  unfold recognise at h
  split at h
  · -- a comment between marks
    rename_i hopen
    obtain ⟨rfl, hhead⟩ : c = '/' ∧ cs.head? = some '*' := by simpa using hopen
    obtain ⟨cs, rfl⟩ := List.head?_eq_some_iff.1 hhead
    rw [List.drop_succ_cons, List.drop_zero] at h
    split at h
    · rename_i n hn
      obtain ⟨rfl, rfl⟩ := Prod.mk.inj h
      refine ⟨.blockComment ?_, fun _ => rfl, rfl⟩
      rw [← List.append_nil (cs.take n), commentLength_take_append [] hn, List.append_nil,
        List.length_take_of_le (commentLength_le hn)]
    · obtain ⟨rfl, rfl⟩ := Prod.mk.inj h
      exact ⟨.openComment, nofun, rfl⟩
  rename_i hopen
  split at h
  · -- a comment to the end of the line
    rename_i hline
    obtain ⟨rfl, hhead⟩ : c = '/' ∧ cs.head? = some '/' := by simpa using hline
    obtain ⟨cs, rfl⟩ := List.head?_eq_some_iff.1 hhead
    obtain ⟨body, rest, rfl, hbody, hrest⟩ := exists_row (· != '\n') cs
    have hrow : ('/' :: (body ++ rest)).takeWhile (· != '\n') = '/' :: body := by
      rw [List.takeWhile_cons_of_pos (by decide), takeWhile_append_stop hbody hrest]
    rw [hrow] at h
    obtain ⟨rfl, rfl⟩ := Prod.mk.inj h
    rw [List.length_cons, List.take_succ_cons, List.drop_succ_cons, List.take_left, List.drop_left]
    refine ⟨.lineComment fun hmem => absurd (hbody _ hmem) (by decide), fun _ => ?_, rfl⟩
    cases rest with
    | nil => rfl
    | cons d rest => simpa [LexemeClass.endsBefore] using hrest
  rename_i hline
  rw [if_neg (by simpa using hquote)] at h
  split at h
  · -- the end of a line
    rename_i hfeed
    obtain rfl := beq_iff_eq.1 hfeed
    obtain ⟨rfl, rfl⟩ := Prod.mk.inj h
    exact ⟨.newline, fun _ => rfl, rfl⟩
  rename_i hfeed
  split at h
  · -- blanks
    rename_i hblank
    obtain ⟨blanks, rest, rfl, hblanks, hrest⟩ := exists_row isSpacing cs
    rw [takeWhile_append_stop hblanks hrest] at h
    obtain ⟨rfl, rfl⟩ := Prod.mk.inj h
    rw [List.take_left, List.drop_left]
    exact ⟨.blank hblank hblanks, fun _ => by rw [LexemeClass.endsBefore, hrest]; rfl, rfl⟩
  split at h
  · -- a mark
    rename_i s hs
    obtain ⟨rfl, rfl⟩ := Prod.mk.inj h
    exact stands_mark hs hopen hline
  · rename_i hs
    obtain ⟨rfl, rfl⟩ := Prod.mk.inj h
    refine ⟨.stray (by simpa using hfeed) fun s hs' => ?_, nofun, rfl⟩
    have hnot := List.find?_eq_none.1 hs s s.mem_all
    rw [hs'] at hnot
    simp [List.isPrefixOf] at hnot

/-! ### The first lexeme of a text -/

theorem LexemeClass.not_isBad_of_endsBefore {cls : LexemeClass} {rest : List Char}
    (h : cls.endsBefore rest = true) : cls.isBad = false := by
  cases cls with
  | openComment | openString | stray => cases h
  | _ => rfl

theorem LexemeClass.isBad_within (before : Option Char) (text : List Char) (after : Option Char)
    (cls : LexemeClass) : (cls.within before text after).isBad = cls.isBad := by
  have hword : (wordClass before text after).isBad = false := by
    rcases wordClass_cases before text after with h | ⟨k, h, -⟩ <;> rw [h] <;> rfl
  cases cls with
  | keyword | ident => exact hword
  | _ => rfl

theorem Spelled.ne_nil {cls : LexemeClass} {text : List Char} (h : Spelled cls text) :
    text ≠ [] := by
  cases h with
  | keyword k => cases k <;> decide
  | symbol s => cases s <;> decide
  | _ => exact List.cons_ne_nil _ _

theorem Tiles.uncons {before : Option Char} {cs : List Char} {l : Lexeme} {ls : List Lexeme}
    (h : Tiles before cs (l :: ls)) :
    ∃ rest, cs = l.text ++ rest ∧ Stands before l.cls l.text rest ∧
      (l.cls.isBad = false → Tiles l.text.getLast? rest ls) := by
  cases h with
  | bad hread hbad =>
      exact ⟨_, by simp, stands_of_recognise hread, fun hgood => by simp [hbad] at hgood⟩
  | cons hread _ hrest => exact ⟨_, by simp, stands_of_recognise hread, fun _ => hrest⟩

theorem Tiles.cons_spelled (before : Option Char) {text rest : List Char} {ls : List Lexeme}
    {cls : LexemeClass} (h : Spelled cls text) (hends : cls.endsBefore rest = true)
    (hrest : Tiles text.getLast? rest ls) :
    Tiles before (text ++ rest) (⟨cls.within before text rest.head?, text⟩ :: ls) := by
  obtain ⟨c, text, rfl⟩ := List.exists_cons_of_ne_nil h.ne_nil
  have hread := recognise_of_spelled before h hends
  have hgood : (cls.within before (c :: text) rest.head?).isBad = false := by
    rw [LexemeClass.isBad_within, LexemeClass.not_isBad_of_endsBefore hends]
  have htiles := @Tiles.cons before c (text ++ rest) _ text.length ls hread hgood
  rw [List.take_left, List.drop_left] at htiles
  exact htiles hrest

theorem Tiles.spelled {before : Option Char} {cs : List Char} {ls : List Lexeme}
    (h : Tiles before cs ls) : ∀ l ∈ ls, Spelled l.cls l.text := by
  induction h with
  | nil => nofun
  | bad hread _ => exact List.forall_mem_singleton.2 (stands_of_recognise hread).spelled
  | cons hread _ _ ih => exact List.forall_mem_cons.2 ⟨(stands_of_recognise hread).spelled, ih⟩

theorem Spelled.of_newline_mem {cls : LexemeClass} {text : List Char} (h : Spelled cls text)
    (hmem : '\n' ∈ text) : cls = .blockComment ∨ cls = .newline ∧ text = ['\n'] := by
  have hrow : ∀ {p : Char → Bool} {row : List Char}, p '\n' = false →
      (∀ c ∈ row, p c = true) → '\n' ∉ row := by
    intro p row hp hall hmem
    simp [hall _ hmem] at hp
  cases h with
  | blockComment => exact .inl rfl
  | newline => exact .inr ⟨rfl, rfl⟩
  | openComment => exact absurd hmem (by decide)
  | lineComment hbody => exact absurd hmem (by simpa using hbody)
  | whole hc hdigits =>
      exact absurd hmem (hrow (by decide) (List.forall_mem_cons.2 ⟨hc, hdigits⟩))
  | decimal hc hdigits hplaces =>
      have hwhole := hrow (p := isDecimal) (by decide) (List.forall_mem_cons.2 ⟨hc, hdigits⟩)
      have hpart := hrow (p := isDecimal) (by decide) hplaces
      exact absurd hmem (by simp_all)
  | string hmark hbody =>
      rename_i mark body
      have hstay := newline_not_mem_body mark (body ++ [mark])
      rw [hbody, List.take_left] at hstay
      exact absurd hmem (by rcases hmark with rfl | rfl <;> simpa using hstay)
  | openString hmark hbody =>
      exact absurd hmem (by rcases hmark with rfl | rfl <;> simpa using hbody)
  | keyword k => exact absurd hmem (by cases k <;> decide)
  | ident hc hword =>
      refine absurd hmem (hrow (p := isAsciiWord) (by decide) (List.forall_mem_cons.2 ⟨?_, hword⟩))
      exact (Bool.and_eq_true_iff.1 hc).1
  | symbol s => exact absurd hmem (newline_not_mem_symbol s)
  | blank hc hblanks =>
      exact absurd hmem (hrow (by decide) (List.forall_mem_cons.2 ⟨hc, hblanks⟩))
  | stray hc _ => exact absurd (List.mem_singleton.1 hmem) (Ne.symm hc)

end TriggerEngine
