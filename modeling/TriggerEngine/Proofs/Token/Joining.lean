/-
**Scripts one below the other.**

A line feed divides a text for good: no lexeme but a comment between marks reaches over one, and a
script without bad lexemes has closed its comments.  So the lexemes of two scripts with a line feed
between them are the lexemes of the first, the line feed, and the lexemes of the second; and a word
at the seam is the same word with a line feed beside it as with nothing.

The tokens of the second script stand as many lines further down as the first one has lines.  The
line feed itself becomes a token, provided the first script has closed its brackets.

Main definitions:

* `Token.lower` — a token a number of lines further down;
* `bracketsOver` — how many brackets are open behind a row of tokens.

Main results:

* `recognise_append` — a lexeme that is not bad does not see beyond a line feed;
* `Tiles.join` — the lexemes of two scripts one below the other;
* `tapeFrom_append`, `tapeFrom_lower` — their tokens;
* `tape_join` — the tape of two scripts one below the other.
-/

import TriggerEngine.Proofs.Token.Tiling

set_option autoImplicit false

namespace TriggerEngine

open Text

/-! ### A line feed ends a lexeme -/

section Seam

variable {cs : List Char} (ds : List Char)

theorem head?_append_newline {x : Char} (hx : x ≠ '\n') :
    ((cs ++ '\n' :: ds).head? == some x) = (cs.head? == some x) := by
  cases cs with
  | nil => simp [Ne.symm hx]
  | cons c cs => rfl

theorem takeWhile_append_newline {p : Char → Bool} (hp : p '\n' = false) :
    (cs ++ '\n' :: ds).takeWhile p = cs.takeWhile p := by
  induction cs with
  | nil => simp [hp]
  | cons c cs ih => simp [List.takeWhile_cons, ih]

theorem commentLength_take_append {n : Nat} (h : commentLength cs = some n) :
    commentLength (cs.take n ++ ds) = some n := by
  fun_induction commentLength cs generalizing n with
  | case1 =>
      obtain rfl := Option.some.inj h
      rfl
  | case2 c cs hnot ih =>
      obtain ⟨m, hm, rfl⟩ := Option.map_eq_some_iff.1 h
      have hrest := ih hm
      rw [List.take_succ_cons, List.cons_append, commentLength, hrest]
      · rfl
      · rintro rest rfl heq
        cases cs with
        | nil => cases hm
        | cons d cs =>
            cases m with
            | zero =>
                rw [commentLength.eq_def] at hm
                split at hm <;> simp at hm
            | succ m =>
                obtain ⟨rfl, -⟩ : d = '/' ∧ _ := by simpa using heq
                exact hnot cs rfl rfl
  | case3 => cases h

theorem commentLength_append {n : Nat} (h : commentLength cs = some n) :
    commentLength (cs ++ ds) = some n := by
  rw [← List.take_append_drop n cs, List.append_assoc]
  exact commentLength_take_append _ h

theorem bodyLength_take_append {mark : Char} (hmark : mark ≠ '\\')
    (h : (cs.drop (Literal.bodyLength mark cs)).head? = some mark) :
    Literal.bodyLength mark (cs.take (Literal.bodyLength mark cs) ++ mark :: ds) =
      Literal.bodyLength mark cs := by
  fun_induction Literal.bodyLength mark cs with
  | case1 c cs hc => exact absurd (Option.some.inj h).symm hmark
  | case2 c cs hc ih =>
      have hrest := ih (by simpa using h)
      simp [Literal.bodyLength, hrest, hc]
  | case3 c cs _ hc =>
      rw [List.take_zero, List.nil_append, Literal.bodyLength]
      · simp
      · exact fun _ _ hback => absurd hback hmark
  | case4 c cs _ hc ih =>
      have hrest := ih (by simpa using h)
      rw [List.take_succ_cons, List.cons_append, Literal.bodyLength, if_neg hc, hrest]
      rintro _ _ rfl
      simp at hc
  | case5 => simp at h

theorem bodyLength_append {mark : Char} (hmark : mark ≠ '\\')
    (h : (cs.drop (Literal.bodyLength mark cs)).head? = some mark) :
    Literal.bodyLength mark (cs ++ ds) = Literal.bodyLength mark cs := by
  obtain ⟨rest, hrest⟩ := List.head?_eq_some_iff.1 h
  have hcs := List.take_append_drop (Literal.bodyLength mark cs) cs
  rw [hrest] at hcs
  conv_lhs => rw [← hcs, List.append_assoc]
  exact bodyLength_take_append _ hmark h

theorem newline_not_mem_symbol (s : Symbol) : '\n' ∉ s.text.toList := by
  cases s <;> decide

theorem isPrefixOf_append_newline {row : List Char} (hrow : '\n' ∉ row) :
    row.isPrefixOf (cs ++ '\n' :: ds) = row.isPrefixOf cs := by
  induction row generalizing cs with
  | nil => simp
  | cons r row ih =>
      obtain ⟨hr, hrow⟩ : '\n' ≠ r ∧ '\n' ∉ row := by simpa using hrow
      cases cs with
      | nil => simp [List.isPrefixOf, Ne.symm hr]
      | cons c cs => simp [List.isPrefixOf, ih hrow]

theorem symbolAt?_append_newline : symbolAt? (cs ++ '\n' :: ds) = symbolAt? cs := by
  unfold symbolAt?
  congr 1
  funext s
  exact isPrefixOf_append_newline ds (newline_not_mem_symbol s)

theorem isBoundary_newline : isBoundary (some '\n') = true := by
  decide

theorem wordClass_append_newline (before : Option Char) (word : List Char) {n : Nat}
    (hn : n ≤ cs.length) :
    wordClass before word ((cs ++ '\n' :: ds).drop n).head? =
      wordClass before word (cs.drop n).head? := by
  rw [List.drop_append_of_le_length hn]
  cases hrest : cs.drop n with
  | cons c rest => rfl
  | nil =>
      have hnone : isBoundary none = true := rfl
      simp [wordClass, isBoundary_newline, hnone]

theorem decimal_append :
    (let whole := ((cs ++ '\n' :: ds).takeWhile isDecimal).length
      let places := (((cs ++ '\n' :: ds).drop (whole + 1)).takeWhile isDecimal).length
      if ((cs ++ '\n' :: ds).drop whole).head? == some '.' && places != 0 then
        (LexemeClass.decimal, whole + 1 + places)
      else (.whole, whole)) =
    (let whole := (cs.takeWhile isDecimal).length
      let places := ((cs.drop (whole + 1)).takeWhile isDecimal).length
      if (cs.drop whole).head? == some '.' && places != 0 then (.decimal, whole + 1 + places)
      else (.whole, whole)) := by
  have hnewline : isDecimal '\n' = false := by decide
  have hle := (List.takeWhile_prefix isDecimal (l := cs)).length_le
  simp only [takeWhile_append_newline ds hnewline, List.drop_append_of_le_length hle,
    head?_append_newline ds (show '.' ≠ '\n' by decide)]
  by_cases hdot : (cs.drop (cs.takeWhile isDecimal).length).head? = some '.'
  · have hlt := lt_of_head?_drop hdot
    rw [List.drop_append_of_le_length hlt, takeWhile_append_newline ds hnewline]
  · have hnot : ((cs.drop (cs.takeWhile isDecimal).length).head? == some '.') = false := by
      simpa using hdot
    simp only [hnot, Bool.false_and, Bool.false_eq_true, if_false]

/-- **A lexeme that is not bad does not see beyond a line feed.** -/
theorem recognise_append {before : Option Char} {c : Char}
    (h : (recognise before c cs).1.isBad = false) :
    recognise before c (cs ++ '\n' :: ds) = recognise before c cs := by
  unfold recognise at h ⊢
  simp only [head?_append_newline ds (show '*' ≠ '\n' by decide),
    head?_append_newline ds (show '/' ≠ '\n' by decide)]
  -- in the order of the tests; what they read is closed, or stops at the end of the line
  by_cases hopen : (c == '/' && cs.head? == some '*') = true
  · simp only [hopen, if_true] at h ⊢
    obtain ⟨cs', rfl⟩ : ∃ cs', cs = '*' :: cs' := by
      cases cs with
      | nil => simp at hopen
      | cons d cs' => exact ⟨cs', by simp at hopen; rw [hopen.2]⟩
    simp only [List.cons_append, List.drop_succ_cons, List.drop_zero] at h ⊢
    cases hlen : commentLength cs' with
    | none => simp [hlen, LexemeClass.isBad] at h
    | some n => rw [commentLength_append _ hlen]
  · simp only [hopen] at h ⊢
    simp only [Bool.false_eq_true, if_false] at h ⊢
    by_cases hline : (c == '/' && cs.head? == some '/') = true
    · simp only [hline, if_true, takeWhile_append_newline ds (p := (· != '\n')) rfl]
    · simp only [hline, Bool.false_eq_true, if_false] at h ⊢
      by_cases hdigit : isDecimal c = true
      · simp only [hdigit, if_true]
        exact decimal_append ds
      · simp only [hdigit, Bool.false_eq_true, if_false] at h ⊢
        by_cases hquote : (c == '"' || c == '\'') = true
        · simp only [hquote, if_true] at h ⊢
          have hclosed : (cs.drop (Literal.bodyLength c cs)).head? = some c := by
            refine Decidable.byContradiction fun hnot => ?_
            rw [if_neg (by simpa using hnot)] at h
            cases h
          have hmark : c ≠ '\\' := by
            rintro rfl
            simp at hquote
          have hle := Nat.le_of_lt (lt_of_head?_drop hclosed)
          rw [bodyLength_append _ hmark hclosed, List.drop_append_of_le_length hle,
            List.head?_append, hclosed]
          rfl
        · simp only [hquote, Bool.false_eq_true, if_false] at h ⊢
          by_cases hname : startsName c = true
          · have hle := (List.takeWhile_prefix isAsciiWord (l := cs)).length_le
            simp only [hname, if_true, takeWhile_append_newline ds (p := isAsciiWord) rfl,
              wordClass_append_newline ds _ _ hle, List.take_append_of_le_length hle]
          · simp only [hname, Bool.false_eq_true, if_false] at h ⊢
            rw [takeWhile_append_newline ds (p := isSpacing) rfl, ← List.cons_append,
              symbolAt?_append_newline]

end Seam

theorem recognise_newline (c : Char) (cs : List Char) :
    recognise (some '\n') c cs = recognise none c cs := by
  have hnone : isBoundary none = true := rfl
  simp only [recognise, wordClass, isBoundary_newline, hnone]

theorem Tiles.of_newline {cs : List Char} {ls : List Lexeme} (h : Tiles none cs ls) :
    Tiles (some '\n') cs ls := by
  cases h with
  | nil => exact .nil
  | bad hread hbad => exact .bad (by rw [recognise_newline, hread]) hbad
  | cons hread hgood hrest => exact .cons (by rw [recognise_newline, hread]) hgood hrest

theorem Tiles.join {before : Option Char} {cs ds : List Char} {ls ms : List Lexeme}
    (h : Tiles before cs ls) (hgood : ∀ l ∈ ls, l.cls.isBad = false) (h' : Tiles none ds ms) :
    Tiles before (cs ++ '\n' :: ds) (ls ++ ⟨.newline, ['\n']⟩ :: ms) := by
  induction h with
  | nil => exact @Tiles.cons _ '\n' ds .newline 0 ms rfl rfl h'.of_newline
  | bad _ hbad => simp [hbad] at hgood
  | cons hread hcls _ ih =>
      rename_i before c cs cls tail rest _
      have htail : tail ≤ cs.length := by
        have hle := recognise_le before c cs
        rwa [hread] at hle
      have hread' : recognise before c (cs ++ '\n' :: ds) = (cls, tail) := by
        rw [recognise_append ds (by rw [hread]; exact hcls), hread]
      have hrest := ih fun l hl => hgood l (List.mem_cons_of_mem _ hl)
      rw [← List.drop_append_of_le_length htail, ← List.take_append_of_le_length htail] at hrest
      have hjoin := Tiles.cons hread' hcls hrest
      rwa [List.take_append_of_le_length htail] at hjoin

/-! ### Tokens further down -/

/-- A token a number of lines further down. -/
def Token.lower (lines : Nat) (token : Token) : Token :=
  { token with line := token.line + lines }

/-- A place a number of lines further down. -/
def Position.lower (lines : Nat) (p : Position) : Position :=
  { p with line := p.line + lines }

theorem Position.past_lower (lines : Nat) (p : Position) (cs : List Char) :
    (p.lower lines).past cs = (p.past cs).lower lines := by
  induction cs generalizing p with
  | nil => rfl
  | cons c cs ih =>
      have hstep : (p.lower lines).step c = (p.step c).lower lines := by
        unfold step
        split <;> simp [lower, Nat.add_right_comm]
      show ((p.lower lines).step c).past cs = ((p.step c).past cs).lower lines
      rw [hstep, ih]

theorem Lexeme.read_congr {file file' : Option String} {p p' : Position} {brackets : Nat}
    {lexeme : Lexeme} (h : ∀ fault, lexeme.read file p brackets ≠ .fault fault) :
    lexeme.read file' p' brackets = lexeme.read file p brackets := by
  unfold Lexeme.read at h ⊢
  cases hcls : lexeme.cls <;> simp_all

theorem tapeFrom_lower {file : Option String} (file' : Option String) (lines : Nat)
    {p : Position} {brackets : Nat} {ls : List Lexeme}
    (h : (tapeFrom file p brackets ls).fault = none) :
    tapeFrom file' (p.lower lines) brackets ls =
      ⟨(tapeFrom file p brackets ls).tokens.map (Token.lower lines), none⟩ := by
  induction ls generalizing p brackets with
  | nil => rfl
  | cons l ls ih =>
      rw [tapeFrom] at h ⊢
      rw [tapeFrom]
      have hread : ∀ {met}, l.read file p brackets = met → (∀ fault, met ≠ .fault fault) →
          l.read file' (p.lower lines) brackets = met := by
        rintro _ rfl hmet
        exact Lexeme.read_congr hmet
      cases hmet : l.read file p brackets with
      | fault fault => simp [hmet] at h
      | nothing =>
          simp only [hmet] at h
          simp only [hread hmet (by simp), Position.past_lower, ih h]
      | item item =>
          simp only [hmet] at h
          simp only [hread hmet (by simp), Position.past_lower, ih h]
          rfl

/-! ### Brackets -/

/-- How many brackets are open behind a token. -/
def bracketsPast (brackets : Nat) (token : Token) : Nat :=
  match token.item with
  | .symbol .lparen => brackets + 1
  | .symbol .lbracket => brackets + 1
  | .symbol .rparen => brackets - 1
  | .symbol .rbracket => brackets - 1
  | _ => brackets

/-- How many brackets are open behind a row of tokens. -/
def bracketsOver (brackets : Nat) (tokens : List Token) : Nat :=
  tokens.foldl bracketsPast brackets

@[simp] theorem bracketsOver_nil (brackets : Nat) : bracketsOver brackets [] = brackets := rfl

@[simp] theorem bracketsOver_cons (brackets : Nat) (token : Token) (tokens : List Token) :
    bracketsOver brackets (token :: tokens) =
      bracketsOver (bracketsPast brackets token) tokens := rfl

@[simp] theorem bracketsOver_append (brackets : Nat) (tokens more : List Token) :
    bracketsOver brackets (tokens ++ more) = bracketsOver (bracketsOver brackets tokens) more := by
  simp [bracketsOver]

theorem Lexeme.brackets_of_nothing {file : Option String} {p : Position} {brackets : Nat}
    {lexeme : Lexeme} (h : lexeme.read file p brackets = .nothing) :
    lexeme.bracketsAfter brackets = brackets := by
  unfold Lexeme.read readWhole at h
  unfold Lexeme.bracketsAfter
  grind

theorem Lexeme.brackets_of_item {file : Option String} {p : Position} {brackets : Nat}
    {lexeme : Lexeme} {item : Item} (h : lexeme.read file p brackets = .item item)
    (line column : Nat) :
    lexeme.bracketsAfter brackets = bracketsPast brackets ⟨item, line, column⟩ := by
  unfold Lexeme.read readWhole at h
  unfold Lexeme.bracketsAfter bracketsPast
  grind

/-! ### Two scripts -/

theorem tapeFrom_append {file file' : Option String} {p : Position} {brackets : Nat}
    {ls : List Lexeme} {body : List Token} {stop : Token} (more : List Lexeme)
    (h : tapeFrom file p brackets ls = ⟨body ++ [stop], none⟩) :
    tapeFrom file' p brackets (ls ++ more) =
      let rest := tapeFrom file' (p.past (textOf ls)) (bracketsOver brackets body) more
      { rest with tokens := body ++ rest.tokens } := by
  induction ls generalizing p brackets body with
  | nil =>
      rw [tapeFrom] at h
      obtain rfl : body = [] := by
        cases body with
        | nil => rfl
        | cons t body => simp at h
      rfl
  | cons l ls ih =>
      rw [tapeFrom] at h
      rw [List.cons_append, tapeFrom]
      cases hmet : l.read file p brackets with
      | fault fault => simp [hmet] at h
      | nothing =>
          have hread : l.read file' p brackets = .nothing :=
            (Lexeme.read_congr (by simp [hmet])).trans hmet
          simp only [hmet, Lexeme.brackets_of_nothing hmet] at h
          simp only [hread, textOf_cons, Position.past_append, Lexeme.brackets_of_nothing hmet]
          exact ih h
      | item item =>
          have hread : l.read file' p brackets = .item item :=
            (Lexeme.read_congr (by simp [hmet])).trans hmet
          simp only [hmet] at h
          obtain ⟨htokens, hfault⟩ := Tape.mk.inj h
          -- the token of this lexeme is the first of them, as it is not the end
          obtain ⟨body, rfl, hbody⟩ : ∃ rest, body = ⟨item, p.line, p.column⟩ :: rest ∧
              (tapeFrom file (p.past l.text) (l.bracketsAfter brackets) ls).tokens =
                rest ++ [stop] := by
            cases body with
            | nil =>
                obtain ⟨-, hnil⟩ := List.cons.inj htokens
                have hended := (tapeFrom_ended hfault).1
                exact absurd hnil hended.ne_nil
            | cons t rest =>
                obtain ⟨rfl, hrest⟩ := List.cons.inj htokens
                exact ⟨rest, rfl, hrest⟩
          have htail : tapeFrom file (p.past l.text) (l.bracketsAfter brackets) ls =
              ⟨body ++ [stop], none⟩ := by
            rw [← hbody, ← hfault]
          rw [Lexeme.brackets_of_item hmet p.line p.column] at htail
          simp only [hread, textOf_cons, Position.past_append, bracketsOver_cons,
            Lexeme.brackets_of_item hmet p.line p.column]
          rw [ih htail]
          rfl

/-- **The tape of two scripts one below the other**, if the first has closed its brackets: the
tokens of the first one, the end of its last line, and those of the second one further down. -/
theorem tape_join (file'' : Option String) {file file' : Option String} {a b : String}
    {body body' : List Token} {stop stop' : Token} (ha : tape file a = ⟨body ++ [stop], none⟩)
    (hb : tape file' b = ⟨body' ++ [stop'], none⟩) (hclosed : bracketsOver 0 body = 0) :
    ∃ line column, tape file'' (a ++ "\n" ++ b) =
      ⟨(body ++ ⟨.newline, line, column⟩ :: body'.map (Token.lower (1 + a.toList.count '\n'))) ++
        [stop'.lower (1 + a.toList.count '\n')], none⟩ := by
  have hfault : (tape file a).fault = none := by rw [ha]
  have hlexemes : lexemes (a ++ "\n" ++ b).toList =
      lexemes a.toList ++ ⟨.newline, ['\n']⟩ :: lexemes b.toList := by
    refine (tiles_lexemes _).unique ?_
    have hjoin := (tiles_lexemes a.toList).join (tapeFrom_ended hfault).2 (tiles_lexemes b.toList)
    simpa [String.toList_append] using hjoin
  have hplace : (Position.start.past a.toList).past ['\n'] =
      Position.start.lower (1 + a.toList.count '\n') := by
    rw [Position.past_start]
    simp [Position.past, Position.step, Position.lower, Position.start, Nat.add_comm]
  have hb' : (tapeFrom file' .start 0 (lexemes b.toList)).fault = none := by
    rw [← tape, hb]
  refine ⟨(Position.start.past a.toList).line, (Position.start.past a.toList).column, ?_⟩
  rw [tape, hlexemes, tapeFrom_append _ ha, hclosed, textOf_of_tape hfault, tapeFrom]
  simp only [Lexeme.read, beq_self_eq_true, if_true, Lexeme.bracketsAfter, hplace,
    tapeFrom_lower _ _ hb']
  rw [← tape, hb]
  simp

end TriggerEngine
