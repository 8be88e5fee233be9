/-
**Renaming lists and marks.**

Two computations that do the same from heaps of different sizes come to values that differ in names
only: a new list gets the next reference, and a number or text that was computed the next mark.  A
renaming leaves alone what stands in a base that both heaps share and moves everything later by a
gap.  What values are worth, how they are written and whether they are equal does not depend on it.

Main definitions:

* `Value.Within`, `Heap.IsSound` — values that refer to what is there, and heaps of such values;
* `Heap.sketch` — values with their contents, as deep as one likes;
* `Heap.Extends` — heaps with more lists and marks;
* `Renaming`, `Renaming.value` — renamings;
* `Heap.Renamed` — heaps that differ by a renaming.

Main results:

* `Renaming.same_value`, `Renaming.sameKey_value` — renaming keeps apart what is not the same;
* `Heap.Renamed.text`, `Heap.Renamed.valuesEqual?`, `Heap.Renamed.sketch` — **what is seen of a
  value does not depend on names**;
* `Heap.Renamed.newList`, `Heap.Renamed.newNumber` — new values are new ones renamed;
* `Heap.Extends.renamed`, `Heap.Extends.sketch` — a heap can be taken for an extension of it.
-/

import TriggerEngine.Proofs.Value.Key
import TriggerEngine.Value.Equality
import TriggerEngine.Value.Picture
import TriggerEngine.Value.Written

set_option autoImplicit false

namespace TriggerEngine

/-! ### Heaps that are sound -/

/-- Whether a mark was given out by a heap with so many marks, if it was given out by any. -/
def Mark.Within (marks : Nat) : Mark → Prop
  | .made n => n < marks
  | _ => True

/-- Whether a value refers to lists and marks of a heap only. -/
def Value.Within (h : Heap) : Value → Prop
  | .int _ mark => mark.Within h.marks
  | .float _ mark => mark.Within h.marks
  | .str _ mark => mark.Within h.marks
  | .list ref => ref < h.lists.size
  | .method receiver _ => receiver.Within h
  | _ => True

namespace Heap

/-- A value with its contents down to a number of levels. -/
def sketch (h : Heap) (labels : Labels) (levels : Nat) (v : Value) : Picture :=
  h.pictureIn labels levels [] [] v

/-- Whether all that stands in a heap refers to what is there. -/
structure IsSound (h : Heap) : Prop where
  lists : ∀ ref, ∀ v ∈ h.list ref, v.Within h
  maps : ∀ ref, ∀ entry ∈ h.map ref, entry.1.Within h ∧ entry.2.Within h

/-- Whether a heap is another one with more lists and marks. -/
structure Extends (base h : Heap) : Prop where
  lists : ∀ ref, ref < base.lists.size → h.list ref = base.list ref
  size : base.lists.size ≤ h.lists.size
  maps : h.maps = base.maps
  marks : base.marks ≤ h.marks

theorem Extends.refl (base : Heap) : base.Extends base :=
  ⟨fun _ _ => rfl, Nat.le_refl _, rfl, Nat.le_refl _⟩

theorem list_push (h : Heap) (items : Array Value) (ref : Nat) :
    (h.newList items).2.list ref = if ref = h.lists.size then items else h.list ref := by
  simp only [newList, list, Array.getD_eq_getD_getElem?, Array.getElem?_push]
  split
  · rfl
  · rfl

end Heap

/-! ### Renamings -/

/-- A renaming of what does not stand in a base: later lists and marks are moved by gaps. -/
structure Renaming where
  /-- What is left alone. -/
  base : Heap
  sound : base.IsSound
  /-- How far lists are moved. -/
  gap : Nat
  /-- How far marks are moved. -/
  markGap : Nat

namespace Renaming

variable (σ : Renaming)

/-- The reference of a list after renaming. -/
def ref (n : Nat) : Nat :=
  if n < σ.base.lists.size then n else n + σ.gap

/-- A mark after renaming. -/
def mark : Mark → Mark
  | .made n => .made (if n < σ.base.marks then n else n + σ.markGap)
  | mark => mark

/-- A value after renaming. -/
def value : Value → Value
  | .null => .null
  | .bool b => .bool b
  | .int n mark => .int n (σ.mark mark)
  | .float x mark => .float x (σ.mark mark)
  | .str s mark => .str s (σ.mark mark)
  | .list ref => .list (σ.ref ref)
  | .map ref => .map ref
  | .object id kind => .object id kind
  | .fn id => .fn id
  | .method receiver member => .method (value receiver) member

/-- An entry of a mapping after renaming. -/
def entry (e : Value × Value) : Value × Value :=
  (σ.value e.1, σ.value e.2)

theorem ref_of_ge {n : Nat} (h : σ.base.lists.size ≤ n) : σ.ref n = n + σ.gap :=
  if_neg (Nat.not_lt.2 h)

theorem mark_of_ge {n : Nat} (h : σ.base.marks ≤ n) : σ.mark (.made n) = .made (n + σ.markGap) := by
  rw [mark, if_neg (Nat.not_lt.2 h)]

theorem ref_injective {n n' : Nat} (h : σ.ref n = σ.ref n') : n = n' := by
  unfold ref at h
  split at h <;> split at h <;> omega

theorem mark_injective {m m' : Mark} (h : σ.mark m = σ.mark m') : m = m' := by
  cases m with
  | made n =>
      cases m' with
      | made n' =>
          have hn := Mark.made.inj h
          congr 1
          split at hn <;> split at hn <;> omega
      | _ => cases h
  | _ =>
      cases m' with
      | made n' => cases h
      | _ => exact h

@[simp] theorem ref_beq (n n' : Nat) : (σ.ref n == σ.ref n') = (n == n') :=
  Bool.eq_iff_iff.2 (by simpa using ⟨σ.ref_injective, fun h => h ▸ rfl⟩)

@[simp] theorem mark_beq (m m' : Mark) : (σ.mark m == σ.mark m') = (m == m') :=
  Bool.eq_iff_iff.2 (by simpa using ⟨σ.mark_injective, fun h => h ▸ rfl⟩)

theorem contains_ref (refs : List Nat) (n : Nat) :
    (refs.map σ.ref).contains (σ.ref n) = refs.contains n := by
  induction refs with
  | nil => rfl
  | cons first rest ih => simp only [List.map_cons, List.contains_cons, ref_beq, ih]

theorem value_of_within {v : Value} (h : v.Within σ.base) : σ.value v = v := by
  have hmark : ∀ {m : Mark}, m.Within σ.base.marks → σ.mark m = m := by
    intro m hm
    cases m with
    | made n => exact congrArg Mark.made (if_pos hm)
    | _ => rfl
  induction v with
  | int n mark => exact congrArg (Value.int n) (hmark h)
  | float x mark => exact congrArg (Value.float x) (hmark h)
  | str s mark => exact congrArg (Value.str s) (hmark h)
  | list ref => exact congrArg Value.list (if_pos h)
  | method receiver member ih => exact congrArg (Value.method · member) (ih h)
  | _ => rfl

theorem map_base_list (ref : Nat) : (σ.base.list ref).map σ.value = σ.base.list ref := by
  refine Array.ext_getElem? fun i => ?_
  rw [Array.getElem?_map]
  cases hi : (σ.base.list ref)[i]? with
  | none => rfl
  | some v =>
      exact congrArg some (σ.value_of_within (σ.sound.lists ref v (Array.mem_of_getElem? hi)))

theorem map_base_map (ref : Nat) : (σ.base.map ref).map σ.entry = σ.base.map ref := by
  refine Array.ext_getElem? fun i => ?_
  rw [Array.getElem?_map]
  cases hi : (σ.base.map ref)[i]? with
  | none => rfl
  | some e =>
      obtain ⟨hkey, hvalue⟩ := σ.sound.maps ref e (Array.mem_of_getElem? hi)
      exact congrArg some (Prod.ext (σ.value_of_within hkey) (σ.value_of_within hvalue))

/-! ### What renaming leaves alone -/

@[simp] theorem value_ofNumber (n : Number) (mark : Mark) :
    σ.value (.ofNumber n mark) = .ofNumber n (σ.mark mark) := by
  cases n with
  | int i =>
      simp only [Value.ofNumber]
      split <;> rfl
  | float x => rfl

@[simp] theorem value_ofText (s : String) (mark : Mark) :
    σ.value (.ofText s mark) = .ofText s (σ.mark mark) := by
  unfold Value.ofText
  split <;> rfl

@[simp] theorem number?_value (v : Value) : (σ.value v).number? = v.number? := by
  cases v <;> rfl

@[simp] theorem int?_value (v : Value) : (σ.value v).int? = v.int? := by
  cases v <;> rfl

@[simp] theorem isBool_value (v : Value) : (σ.value v).isBool = v.isBool := by
  cases v <;> rfl

@[simp] theorem isCallable_value (v : Value) : (σ.value v).isCallable = v.isCallable := by
  cases v <;> rfl

@[simp] theorem isHashable_value (v : Value) : (σ.value v).isHashable = v.isHashable := by
  cases v <;> rfl

@[simp] theorem className_value (v : Value) : (σ.value v).className = v.className := by
  cases v <;> rfl

@[simp] theorem typeName_value (v : Value) : (σ.value v).typeName = v.typeName := by
  cases v <;> rfl

@[simp] theorem unhashable_value (v : Value) : Fault.unhashable (σ.value v) = .unhashable v := by
  rw [Fault.unhashable, Fault.unhashable, className_value]

@[simp] theorem same_value (a b : Value) : (σ.value a).same (σ.value b) = a.same b := by
  cases a <;> cases b <;> simp [value, Value.same]

@[simp] theorem sameKey_value (a b : Value) :
    Heap.sameKey (σ.value a) (σ.value b) = Heap.sameKey a b := by
  cases a <;> cases b <;>
    simp [value, Heap.sameKey, Value.numeric?, Value.number?]

theorem entryGet?_map (entries : Array (Value × Value)) (key : Value) :
    Heap.entryGet? (entries.map σ.entry) (σ.value key) =
      (Heap.entryGet? entries key).map σ.value := by
  rw [Heap.entryGet?_eq, Heap.entryGet?_eq, Array.toList_map, List.find?_map, Option.map_map,
    Option.map_map]
  have hkeys : (fun e => Heap.sameKey e.1 (σ.value key)) ∘ σ.entry =
      fun e => Heap.sameKey e.1 key := funext fun e => σ.sameKey_value e.1 key
  rw [hkeys]
  rfl

end Renaming

/-! ### Renamed heaps -/

namespace Heap

/-- Whether a heap is another one renamed, both being extensions of the base. -/
structure Renamed (σ : Renaming) (h h' : Heap) : Prop where
  extend : σ.base.Extends h
  list : ∀ ref, h'.list (σ.ref ref) = (h.list ref).map σ.value
  maps : h'.maps = h.maps
  size : h'.lists.size = h.lists.size + σ.gap
  marks : h'.marks = h.marks + σ.markGap

namespace Renamed

variable {σ : Renaming} {h h' : Heap} (R : h.Renamed σ h')

include R

theorem extends' : σ.base.Extends h' where
  lists ref href := by
    have hlist := R.list ref
    rwa [Renaming.ref, if_pos href, R.extend.lists ref href, σ.map_base_list] at hlist
  size := by
    have := R.extend.size
    rw [R.size]
    omega
  maps := R.maps.trans R.extend.maps
  marks := by
    have := R.extend.marks
    rw [R.marks]
    omega

theorem map (ref : Nat) : h'.map ref = (h.map ref).map σ.entry := by
  have hbase : h.map ref = σ.base.map ref := by rw [Heap.map, Heap.map, R.extend.maps]
  have hbase' : h'.map ref = σ.base.map ref := by rw [Heap.map, Heap.map, R.extends'.maps]
  rw [hbase, hbase', σ.map_base_map]

theorem mapGet? (ref : Nat) (key : Value) :
    h'.mapGet? ref (σ.value key) = (h.mapGet? ref key).map σ.value := by
  rw [Heap.mapGet?, Heap.mapGet?, R.map, σ.entryGet?_map]

theorem truthy (v : Value) : h'.truthy (σ.value v) = h.truthy v := by
  cases v with
  | list ref =>
      show (!(h'.list (σ.ref ref)).isEmpty) = !(h.list ref).isEmpty
      rw [R.list, Array.isEmpty, Array.isEmpty, Array.size_map]
  | map ref =>
      show (!(h'.map ref).isEmpty) = !(h.map ref).isEmpty
      rw [R.map, Array.isEmpty, Array.isEmpty, Array.size_map]
  | _ => rfl

/-! ### New values -/

theorem newList (items : Array Value) :
    (h'.newList (items.map σ.value)).1 = σ.value (h.newList items).1 ∧
      (h.newList items).2.Renamed σ (h'.newList (items.map σ.value)).2 := by
  have hfresh : σ.ref h.lists.size = h'.lists.size := by
    rw [σ.ref_of_ge R.extend.size, R.size]
  refine ⟨congrArg Value.list hfresh.symm, ⟨?_, ?_, R.extend.maps, R.extend.marks⟩, ?_, R.maps, ?_,
    R.marks⟩
  · intro ref href
    have hne : ref ≠ h.lists.size := by
      have := R.extend.size
      omega
    rw [list_push, if_neg hne]
    exact R.extend.lists ref href
  · show σ.base.lists.size ≤ (h.lists.push items).size
    have := R.extend.size
    rw [Array.size_push]
    omega
  · intro ref
    rw [list_push, list_push]
    by_cases href : ref = h.lists.size
    · rw [if_pos href, if_pos (href ▸ hfresh)]
    · have hne : σ.ref ref ≠ h'.lists.size := by
        rw [← hfresh]
        exact fun heq => href (σ.ref_injective heq)
      rw [if_neg href, if_neg hne]
      exact R.list ref
  · show (h'.lists.push (items.map σ.value)).size = (h.lists.push items).size + σ.gap
    rw [Array.size_push, Array.size_push, R.size]
    omega

theorem newMark : h'.newMark.1 = σ.mark h.newMark.1 ∧ h.newMark.2.Renamed σ h'.newMark.2 := by
  refine ⟨?_, ⟨R.extend.lists, R.extend.size, R.extend.maps, ?_⟩, R.list, R.maps, R.size, ?_⟩
  · show Mark.made h'.marks = σ.mark (.made h.marks)
    rw [σ.mark_of_ge R.extend.marks, R.marks]
  · exact Nat.le_succ_of_le R.extend.marks
  · show h'.marks + 1 = h.marks + 1 + σ.markGap
    rw [R.marks]
    omega

theorem newNumber (n : Number) :
    (h'.newNumber n).1 = σ.value (h.newNumber n).1 ∧
      (h.newNumber n).2.Renamed σ (h'.newNumber n).2 := by
  obtain ⟨hmark, R'⟩ := R.newMark
  refine ⟨?_, R'⟩
  show Value.ofNumber n h'.newMark.1 = σ.value (.ofNumber n h.newMark.1)
  rw [hmark, σ.value_ofNumber]

theorem newText (s : String) :
    (h'.newText s).1 = σ.value (h.newText s).1 ∧ (h.newText s).2.Renamed σ (h'.newText s).2 := by
  obtain ⟨hmark, R'⟩ := R.newMark
  refine ⟨?_, R'⟩
  show Value.ofText s h'.newMark.1 = σ.value (.ofText s h.newMark.1)
  rw [hmark, σ.value_ofText]

theorem builtText (s : String) :
    (h'.builtText s).1 = σ.value (h.builtText s).1 ∧
      (h.builtText s).2.Renamed σ (h'.builtText s).2 := by
  unfold Heap.builtText
  split
  · exact ⟨rfl, R⟩
  · obtain ⟨hmark, R'⟩ := R.newMark
    exact ⟨congrArg (Value.str s) hmark, R'⟩

omit R in
theorem newTexts (texts : List String) : ∀ {h h' : Heap}, h.Renamed σ h' →
    (h'.newTexts texts).1 = (h.newTexts texts).1.map σ.value ∧
      (h.newTexts texts).2.Renamed σ (h'.newTexts texts).2 := by
  induction texts with
  | nil => exact fun R => ⟨rfl, R⟩
  | cons s rest ih =>
      intro h h' R
      obtain ⟨hvalue, R₁⟩ := R.newText s
      obtain ⟨hvalues, R₂⟩ := ih R₁
      refine ⟨?_, R₂⟩
      show (h'.newText s).1 :: ((h'.newText s).2.newTexts rest).1 = _
      rw [hvalue, hvalues]
      rfl

/-! ### What is seen of a value -/

omit R in
theorem textRow_map {write write' : Value → Except Unwritable String}
    (hwrite : ∀ v, write' (σ.value v) = write v) (vs : List Value) :
    textRow write' (vs.map σ.value) = textRow write vs := by
  induction vs with
  | nil => rfl
  | cons v rest ih => simp only [List.map_cons, textRow, hwrite, ih]

omit R in
theorem textEntries_map {write write' : Value → Except Unwritable String}
    (hwrite : ∀ v, write' (σ.value v) = write v) (es : List (Value × Value)) :
    textEntries write' (es.map σ.entry) = textEntries write es := by
  induction es with
  | nil => rfl
  | cons e rest ih =>
      obtain ⟨key, v⟩ := e
      have hrow : textRow write' [σ.value key, σ.value v] = textRow write [key, v] :=
        textRow_map hwrite [key, v]
      simp only [List.map_cons, Renaming.entry, textEntries, hrow, ih]

theorem inspect (labels : Labels) (levels : Nat) : ∀ lists maps v,
    h'.inspect labels levels (lists.map σ.ref) maps (σ.value v) =
      h.inspect labels levels lists maps v := by
  induction levels with
  | zero => exact fun _ _ _ => rfl
  | succ levels ih =>
      intro lists maps v
      cases v with
      | list ref =>
          have hrow := textRow_map (fun v => ih (ref :: lists) maps v) (h.list ref).toList
          rw [List.map_cons] at hrow
          simp only [Renaming.value, Heap.inspect, σ.contains_ref, R.list, Array.toList_map, hrow]
      | map ref =>
          have hrow := textEntries_map (fun v => ih lists (ref :: maps) v) (h.map ref).toList
          simp only [Renaming.value, Heap.inspect, R.map, Array.toList_map, hrow]
      | method receiver member => simp only [Renaming.value, Heap.inspect, σ.className_value]
      | _ => rfl

theorem display (labels : Labels) (levels : Nat) (v : Value) :
    h'.display labels levels (σ.value v) = h.display labels levels v := by
  have hinspect := R.inspect labels levels [] [] v
  cases v with
  | str s mark => rfl
  | _ => exact hinspect

theorem text (labels : Labels) (levels : Nat) : ∀ v,
    h'.text labels levels (σ.value v) = h.text labels levels v := by
  -- A list takes two levels at once.
  induction levels using Nat.strongRecOn with
  | ind levels ih =>
      intro v
      have hdisplay := R.display labels (levels + 1) v
      cases v with
      | list ref =>
          match levels with
          | 0 => rfl
          | 1 => rfl
          | levels + 2 =>
              have hrow := textRow_map (ih levels (by omega)) (h.list ref).toList
              simp only [Renaming.value, Heap.text, R.list, Array.toList_map, hrow]
      | null => simp only [Renaming.value, Heap.text]
      | bool b => simp only [Renaming.value, Heap.text]
      | _ =>
          simp only [Renaming.value, Heap.text]
          exact hdisplay

omit R in
theorem equalRows_map {eq eq' : Value → Value → Option Bool}
    (heq : ∀ a b, eq' (σ.value a) (σ.value b) = eq a b) (as bs : List Value) :
    equalRows eq' (as.map σ.value) (bs.map σ.value) = equalRows eq as bs := by
  induction as generalizing bs with
  | nil => cases bs <;> rfl
  | cons a as ih =>
      cases bs with
      | nil => rfl
      | cons b bs => simp only [List.map_cons, equalRows, σ.same_value, heq, ih]

omit R in
theorem equalEntries_map {eq eq' : Value → Value → Option Bool}
    (heq : ∀ a b, eq' (σ.value a) (σ.value b) = eq a b) (other : Array (Value × Value))
    (es : List (Value × Value)) :
    equalEntries eq' (other.map σ.entry) (es.map σ.entry) = equalEntries eq other es := by
  induction es with
  | nil => rfl
  | cons e rest ih =>
      obtain ⟨key, a⟩ := e
      simp only [List.map_cons, Renaming.entry, equalEntries, σ.entryGet?_map, ih]
      cases entryGet? other key with
      | none => rfl
      | some b => simp only [Option.map_some, σ.same_value, heq]

omit R in
theorem equalPlain_value (a b : Value) : equalPlain (σ.value a) (σ.value b) = equalPlain a b := by
  have hkey := σ.sameKey_value a b
  cases a with
  | float x mark =>
      cases b with
      | float y mark' => rfl
      | _ => exact hkey
  | _ => exact hkey

theorem equal? (levels : Nat) : ∀ a b,
    h'.equal? levels (σ.value a) (σ.value b) = h.equal? levels a b := by
  induction levels with
  | zero => exact fun _ _ => rfl
  | succ levels ih =>
      intro a b
      have hplain : some (equalPlain (σ.value a) (σ.value b)) = some (equalPlain a b) :=
        congrArg some (equalPlain_value a b)
      cases a with
      | list r =>
          cases b with
          | list s =>
              simp only [Renaming.value, Heap.equal?, R.list, Array.size_map, Array.toList_map,
                equalRows_map ih]
          | _ => exact hplain
      | map r =>
          cases b with
          | map s =>
              simp only [Renaming.value, Heap.equal?, R.map, Array.size_map, Array.toList_map,
                equalEntries_map ih]
          | _ => exact hplain
      | _ => exact hplain

theorem valuesEqual? (levels : Nat) (a b : Value) :
    h'.valuesEqual? levels (σ.value a) (σ.value b) = h.valuesEqual? levels a b := by
  rw [Heap.valuesEqual?, Heap.valuesEqual?, σ.isBool_value, σ.isBool_value, R.equal?]

theorem pictureIn (labels : Labels) (levels : Nat) : ∀ lists maps v,
    h'.pictureIn labels levels (lists.map σ.ref) maps (σ.value v) =
      h.pictureIn labels levels lists maps v := by
  induction levels with
  | zero =>
      intro lists maps v
      cases v with
      | list ref => simp only [Renaming.value, Heap.pictureIn, σ.contains_ref]
      | _ => rfl
  | succ levels ih =>
      intro lists maps v
      cases v with
      | list ref =>
          have hitem : (h'.pictureIn labels levels (σ.ref ref :: lists.map σ.ref) maps) ∘ σ.value =
              h.pictureIn labels levels (ref :: lists) maps :=
            funext fun v => ih (ref :: lists) maps v
          simp only [Renaming.value, Heap.pictureIn, σ.contains_ref, R.list, Array.toList_map,
            List.map_map, hitem]
      | map ref =>
          simp only [Renaming.value, Heap.pictureIn, R.map, Array.toList_map, List.map_map]
          split
          · rfl
          · refine congrArg Picture.map (List.map_congr_left fun e _ => ?_)
            exact Prod.ext (ih lists (ref :: maps) e.1) (ih lists (ref :: maps) e.2)
      | _ => rfl

/-- **What is seen of a value does not depend on names**, however deep one looks. -/
theorem sketch (labels : Labels) (levels : Nat) (v : Value) :
    h'.sketch labels levels (σ.value v) = h.sketch labels levels v :=
  R.pictureIn labels levels [] [] v

end Renamed

end Heap

/-! ### Extensions -/

/-- The renaming that goes with an extension. -/
def Renaming.between (base : Heap) (hbase : base.IsSound) (h : Heap) : Renaming :=
  ⟨base, hbase, h.lists.size - base.lists.size, h.marks - base.marks⟩

namespace Heap.Extends

variable {base h : Heap} (E : base.Extends h) (hbase : base.IsSound)

include E

theorem renamed : base.Renamed (.between base hbase h) h where
  extend := .refl base
  list ref := by
    have hsize := E.size
    by_cases href : ref < base.lists.size
    · have hkept : (Renaming.between base hbase h).ref ref = ref := if_pos href
      rw [hkept, E.lists ref href]
      exact ((Renaming.between base hbase h).map_base_list ref).symm
    · -- Behind the last list there are none on either side.
      have hmoved : (Renaming.between base hbase h).ref ref =
          ref + (h.lists.size - base.lists.size) := Renaming.ref_of_ge _ (Nat.not_lt.1 href)
      have hnone : h.lists[ref + (h.lists.size - base.lists.size)]? = none :=
        Array.getElem?_eq_none (by omega)
      have hnone' : base.lists[ref]? = none := Array.getElem?_eq_none (Nat.not_lt.1 href)
      rw [hmoved, Heap.list, Heap.list, Array.getD_eq_getD_getElem?, Array.getD_eq_getD_getElem?,
        hnone, hnone']
      simp
  maps := E.maps
  size := by
    have hsize := E.size
    show h.lists.size = base.lists.size + (h.lists.size - base.lists.size)
    omega
  marks := by
    have hmarks := E.marks
    show h.marks = base.marks + (h.marks - base.marks)
    omega

include hbase in
theorem sketch (labels : Labels) (levels : Nat) {v : Value} (hv : v.Within base) :
    h.sketch labels levels v = base.sketch labels levels v := by
  have hsketch := (E.renamed hbase).sketch labels levels v
  rwa [Renaming.value_of_within _ hv] at hsketch

end Heap.Extends

end TriggerEngine
