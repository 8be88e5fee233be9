/-
**Checking scripts.**

Scripts are checked one after the other.  One that cannot be opened or does not compile is worth a
line, any other is worth none, and the lines come in the order of the scripts.  The check of all
scripts ends early only at a script whose reading comes to a whole number with more digits than can
be read: that is no fault of the sort that a check reports, so the scripts behind are not looked at.

Main definitions:

* `CommandLine.Finding`, `CommandLine.Findings` — what there is to say about a script, and about
  scripts in a row;
* `CommandLine.Overlong` — a script that ends the check.

Main results:

* `CommandLine.check_reports` — **what the check of scripts prints and returns**.
-/

import TriggerEngine.CommandLine
import TriggerEngine.Proofs.Syntax.Agreement
import TriggerEngine.Proofs.Token.Spelling

set_option autoImplicit false

namespace TriggerEngine.CommandLine

variable {files : Files} {path : String}

/-- The text of the file under a path. -/
def HasText (files : Files) (path source : String) : Prop :=
  ∃ octets, files.read path = .ok octets ∧ decodeFile octets = .ok source

/-- A file that the system does not open. -/
def Unopened (files : Files) (path : String) (trouble : FileTrouble) : Prop :=
  files.read path = .error trouble ∧ trouble.isSystem = true

/-- A path that names a file with a text, or a file that the system does not open. -/
def Named (files : Files) (path : String) : Prop :=
  (∃ source, HasText files path source) ∨ ∃ trouble, Unopened files path trouble

/-- What there is to say about a script: nothing if it compiles, or else a line. -/
inductive Finding (files : Files) (path : String) : Option String → Prop
  | fine {source : String} {program : Program} (text : HasText files path source)
      (compiles : compile path source = .ok program) : Finding files path none
  | unopened {trouble : FileTrouble} (unopened : Unopened files path trouble) :
      Finding files path (some (path ++ ": " ++ trouble.words path ++ "\n"))
  | lex {source : String} {cause : LexCause} {place : Place} (text : HasText files path source)
      (fails : compile path source = .error (.lex cause place)) :
      Finding files path (some (faultLine path cause.message place (.lex cause place)))
  | parse {source : String} {cause : ParseCause} {place : Place} (text : HasText files path source)
      (fails : compile path source = .error (.parse cause place)) :
      Finding files path (some (faultLine path cause.message place (.parse cause place)))

/-- The lines that there are about scripts in a row. -/
inductive Findings (files : Files) : List String → List String → Prop
  | nil : Findings files [] []
  | cons {path : String} {paths lines : List String} {line : Option String}
      (first : Finding files path line) (rest : Findings files paths lines) :
      Findings files (path :: paths) (line.toList ++ lines)

/-- A script whose reading comes to a whole number of `count` digits, which are too many. -/
structure Overlong (files : Files) (path : String) (count : Nat) : Prop where
  text : ∃ source, HasText files path source ∧
    compile path source = .error (.tooManyDigitsRead count) ∧
      ∃ lexeme ∈ lexemes source.toList, lexeme.cls = .whole ∧ lexeme.text.length = count
  many : Number.maxDigits < count

theorem checkOne_finds (h : Named files path) :
    (∃ line, Finding files path line ∧ checkOne files path = .ok line) ∨
      ∃ count, Overlong files path count ∧
        checkOne files path = .error (.tooManyDigitsRead count) := by
  rw [checkOne]
  rcases h with ⟨source, octets, hread, htext⟩ | ⟨trouble, hread, hsystem⟩
  · have hsource : HasText files path source := ⟨octets, hread, htext⟩
    simp only [hread, htext]
    rcases compile_cases path source with
      ⟨program, hcompile⟩ | ⟨cause, place, token, -, -, -, hcompile⟩ | ⟨fault, hfault, hcompile⟩
    · exact .inl ⟨none, .fine hsource hcompile, by rw [hcompile]⟩
    · exact .inl ⟨_, .parse hsource hcompile, by rw [hcompile]⟩
    · rcases fault_of_tape hfault with
        ⟨cause, line, column, rfl, -⟩ | ⟨lexeme, hmem, hcls, hlen, rfl⟩
      · exact .inl ⟨_, .lex hsource hcompile, by rw [hcompile]⟩
      · refine .inr ⟨_, ⟨⟨source, hsource, hcompile, lexeme, hmem, hcls, rfl⟩, hlen⟩, ?_⟩
        rw [hcompile]
        rfl
  · rw [hread]
    exact .inl ⟨_, .unopened ⟨hread, hsystem⟩, if_pos hsystem⟩

theorem checkAll_finds {paths : List String} (h : ∀ path ∈ paths, Named files path) :
    (∃ lines, Findings files paths lines ∧ checkAll files paths = (lines, none)) ∨
      ∃ before path after lines count, paths = before ++ path :: after ∧
        Findings files before lines ∧ Overlong files path count ∧
          checkAll files paths = (lines, some (.tooManyDigitsRead count)) := by
  induction paths with
  | nil => exact .inl ⟨[], .nil, rfl⟩
  | cons path paths ih =>
      rw [checkAll]
      rcases checkOne_finds (h path List.mem_cons_self) with
        ⟨line, hfinding, hone⟩ | ⟨count, hlong, hone⟩
      · rw [hone]
        rcases ih fun p hp => h p (List.mem_cons_of_mem _ hp) with
          ⟨lines, hlines, hall⟩ | ⟨before, p, after, lines, count, rfl, hlines, hlong, hall⟩
        · exact .inl ⟨_, .cons hfinding hlines, by rw [hall]⟩
        · exact .inr ⟨path :: before, p, after, _, count, rfl, .cons hfinding hlines, hlong,
            by rw [hall]⟩
      · rw [hone]
        exact .inr ⟨[], path, paths, [], count, rfl, .nil, hlong, rfl⟩

/-- **What the check of scripts prints and returns.**  Either all scripts are checked, and the lines
that there are about them are printed in their order; or a script writes a whole number with too
many digits, and the check ends with that fault behind the lines about the scripts before it. -/
theorem check_reports {paths : List String} (h : ∀ path ∈ paths, Named files path) :
    (∃ lines, Findings files paths lines ∧ check files paths =
        ⟨.ok (if lines.isEmpty then 0 else 1), String.join lines, ""⟩) ∨
      ∃ before path after lines count, paths = before ++ path :: after ∧
        Findings files before lines ∧ Overlong files path count ∧ check files paths =
          ⟨.error (.tooManyDigitsRead count), String.join lines, ""⟩ := by
  rw [check]
  rcases checkAll_finds h with
    ⟨lines, hlines, hall⟩ | ⟨before, path, after, lines, count, hpaths, hlines, hlong, hall⟩
  · exact .inl ⟨lines, hlines, by rw [hall]⟩
  · exact .inr ⟨before, path, after, lines, count, hpaths, hlines, hlong, by rw [hall]⟩

/-- A file with a text, one that is not there and one that is a directory. -/
theorem check_reports_mixed :
    let files : Files := fun path =>
      if path = "a" then .ok [120] else .error (if path = "b" then .missing else .directory)
    (∀ path ∈ ["a", "b", "c"], Named files path) ∧
    ((∃ lines, Findings files ["a", "b", "c"] lines ∧ check files ["a", "b", "c"] =
        ⟨.ok (if lines.isEmpty then 0 else 1), String.join lines, ""⟩) ∨
      ∃ before path after lines count, ["a", "b", "c"] = before ++ path :: after ∧
        Findings files before lines ∧ Overlong files path count ∧ check files ["a", "b", "c"] =
          ⟨.error (.tooManyDigitsRead count), String.join lines, ""⟩) := by
  intro files
  have h : ∀ path ∈ ["a", "b", "c"], Named files path := by
    simp only [List.forall_mem_cons, List.not_mem_nil, false_implies, implies_true, and_true]
    exact ⟨.inl ⟨"x", [120], by cbv, rfl⟩, .inr ⟨.missing, by cbv, rfl⟩,
      .inr ⟨.directory, by cbv, rfl⟩⟩
  exact ⟨h, check_reports h⟩

/-! ### A script that ends the check -/

theorem compile_ones {n : Nat} (file : String) (hn : Number.maxDigits ≤ n) :
    compile file (String.ofList (List.replicate (n + 1) '1')) =
      .error (.tooManyDigitsRead (n + 1)) := by
  have hread : recognise none '1' (List.replicate n '1') = (.whole, n) := by
    have htake : (List.replicate n '1').takeWhile Text.isDecimal = List.replicate n '1' :=
      List.takeWhile_eq_self_iff.2 fun d hd => by rw [List.eq_of_mem_replicate hd]; rfl
    rw [recognise_digit none _ rfl, htake]
    simp
  have hlexemes : lexemes (List.replicate (n + 1) '1') = [⟨.whole, List.replicate (n + 1) '1'⟩] := by
    rw [lexemes, List.length_replicate, List.replicate_succ, lexemesF, hread]
    simp only [LexemeClass.isBad, List.take_replicate, List.drop_replicate, Nat.min_self,
      Nat.sub_self, List.replicate_zero]
    cases n <;> rfl
  have htape : tape (some file) (String.ofList (List.replicate (n + 1) '1')) =
      ⟨[], some (.tooManyDigitsRead (n + 1))⟩ := by
    rw [tape, String.toList_ofList, hlexemes]
    simp only [tapeFrom, Lexeme.read, readWhole, List.length_replicate]
    rw [if_neg (by omega)]
  rw [compile, htape]
  rfl

theorem decode_ones (n offset : Nat) :
    Text.Utf8.decodeFrom offset 0 (List.replicate n 49) = .ok (List.replicate n '1') := by
  induction n generalizing offset with
  | zero => rfl
  | succ n ih =>
      rw [List.replicate_succ, Text.Utf8.decodeFrom]
      simp [Text.Utf8.step, ih, List.replicate_succ]

theorem plainLines_ones (n : Nat) :
    Text.Utf8.plainLines (List.replicate n '1') = List.replicate n '1' := by
  induction n with
  | zero => rfl
  | succ n ih => rw [List.replicate_succ, Text.Utf8.plainLines, ih] <;> simp

/-- Two files: a number of one digit more than `n`, and one that is not there. -/
def onesThenNone (n : Nat) : Files := fun path =>
  if path = "a" then .ok (List.replicate (n + 1) 49) else .error .missing

theorem checkOne_onesThenNone {n : Nat} (hn : Number.maxDigits ≤ n) :
    Named (onesThenNone n) "a" ∧
      checkOne (onesThenNone n) "a" = .error (.tooManyDigitsRead (n + 1)) := by
  have hread : (onesThenNone n).read "a" = .ok (List.replicate (n + 1) 49) :=
    (if_neg (by cbv; simp)).trans (if_pos rfl)
  have htext : decodeFile (List.replicate (n + 1) 49) =
      .ok (String.ofList (List.replicate (n + 1) '1')) := by
    rw [decodeFile, Text.Utf8.decode, decode_ones]
    simp only [plainLines_ones]
  refine ⟨.inl ⟨_, _, hread, htext⟩, ?_⟩
  rw [checkOne, hread]
  simp only [htext, compile_ones "a" hn]
  rfl

/-- The first file holds a number of 4301 digits, so nothing is said about the second one, which is
not there. -/
theorem check_stops :
    Named (onesThenNone 4300) "a" ∧ Unopened (onesThenNone 4300) "b" .missing ∧
      check (onesThenNone 4300) ["a", "b"] = ⟨.error (.tooManyDigitsRead 4301), "", ""⟩ := by
  obtain ⟨htext, hone⟩ := checkOne_onesThenNone (n := 4300) (Nat.le_refl _)
  refine ⟨htext, ⟨(if_neg (by cbv; simp)).trans (if_neg (by decide)), rfl⟩, ?_⟩
  rw [check, checkAll, hone]
  rfl

end TriggerEngine.CommandLine
