/-
**Keys.**

Entries are found by their keys, and values of different kinds may be the same key: a whole number,
a double and a truth value are, if they are worth the same.  What makes a value a key can be read
off from it alone.  So being the same key is symmetric and transitive, and what is found after an
entry was put does not depend on the value under which it was put, only on the key that the value
is.

Main definitions:

* `Value.Identity`, `Value.identity?` — what makes two values one and the same;
* `Value.Key`, `Value.key?` — what makes two values the same key.

Main results:

* `Heap.sameKey_iff` — values are the same key exactly if what makes them keys is the same;
* `Heap.entryGet?_entryPut` — **what is found after an entry was put**.
-/

import TriggerEngine.Proofs.Number.Measure
import TriggerEngine.Value.Heap

set_option autoImplicit false

namespace TriggerEngine

namespace Value

/-! ### One and the same -/

/-- What makes two values one and the same. -/
inductive Identity where
  | null
  | bool (b : Bool)
  | int (n : Int) (mark : Mark)
  | float (bits : UInt64) (mark : Mark)
  | str (s : String) (mark : Mark)
  | list (ref : Nat)
  | map (ref : Nat)
  | object (id : Nat)
  | fn (id : Nat)

/-- What makes a value the same as another one; a member function is not even the same as itself. -/
def identity? : Value → Option Identity
  | .null => some .null
  | .bool b => some (.bool b)
  | .int n mark => some (.int n mark)
  | .float x mark => some (.float x.toBits mark)
  | .str s mark => some (.str s mark)
  | .list ref => some (.list ref)
  | .map ref => some (.map ref)
  | .object id _ => some (.object id)
  | .fn id => some (.fn id)
  | .method _ _ => none

theorem same_iff {a b : Value} :
    a.same b = true ↔ ∃ i, a.identity? = some i ∧ b.identity? = some i := by
  cases a <;> cases b <;> simp only [same, identity?] <;> grind

/-! ### The same key -/

/-- What makes two values the same key. -/
inductive Key where
  | null
  | number (worth : Number.Worth)
  | nan (mark : Mark)
  | text (s : String)
  | list (ref : Nat)
  | map (ref : Nat)
  | object (id : Nat)
  | fn (id : Nat)
  | method (member : Member) (receiver : Identity)

/-- What makes a value a key. -/
def key? : Value → Option Key
  | .null => some .null
  | .bool b => (Number.int (if b then 1 else 0)).worth?.map .number
  | .int n _ => (Number.int n).worth?.map .number
  | .float x mark => if x.isNaN then some (.nan mark) else (Number.float x).worth?.map .number
  | .str s _ => some (.text s)
  | .list ref => some (.list ref)
  | .map ref => some (.map ref)
  | .object id _ => some (.object id)
  | .fn id => some (.fn id)
  | .method receiver member => receiver.identity?.map (.method member)

end Value

theorem Number.worth?_of_isNaN {x : Float} (h : x.isNaN = true) :
    (Number.float x).worth? = none := by
  rw [worth?, decode_eq]
  change x.toModel.unpack.isNaN = true at h
  cases hx : x.toModel.unpack with
  | notANumber => rfl
  | _ => rw [hx] at h; cases h

namespace Heap

open Value

theorem number_eq_iff {a b : Number} :
    a.eq b = true ↔ ∃ k, a.worth?.map Key.number = some k ∧ b.worth?.map Key.number = some k := by
  rw [Number.eq_iff]
  constructor
  · rintro ⟨w, ha, hb⟩
    exact ⟨.number w, by rw [ha]; rfl, by rw [hb]; rfl⟩
  · rintro ⟨k, ha, hb⟩
    obtain ⟨w, hw, rfl⟩ := Option.map_eq_some_iff.1 ha
    obtain ⟨w', hw', heq⟩ := Option.map_eq_some_iff.1 hb
    cases heq
    exact ⟨w, hw, hw'⟩

theorem number_float_iff {a : Number} {x : Float} {mark : Mark} :
    a.eq (.float x) = true ↔
      ∃ k, a.worth?.map Key.number = some k ∧ (Value.float x mark).key? = some k := by
  rw [number_eq_iff, key?]
  split
  · rename_i hnan
    rw [Number.worth?_of_isNaN hnan]
    constructor
    · rintro ⟨k, -, hk⟩
      cases hk
    · rintro ⟨k, ha, hk⟩
      cases hk
      obtain ⟨w, -, hw⟩ := Option.map_eq_some_iff.1 ha
      cases hw
  · rfl

theorem float_number_iff {a : Number} {x : Float} {mark : Mark} :
    (Number.float x).eq a = true ↔
      ∃ k, (Value.float x mark).key? = some k ∧ a.worth?.map Key.number = some k := by
  constructor
  · intro h
    obtain ⟨k, ha, hx⟩ := number_float_iff.1 (Number.eq_symm h)
    exact ⟨k, hx, ha⟩
  · rintro ⟨k, hx, ha⟩
    exact Number.eq_symm (number_float_iff.2 ⟨k, ha, hx⟩)

theorem float_float_iff {x y : Float} {mark mark' : Mark} :
    sameKey (.float x mark) (.float y mark') = true ↔
      ∃ k, (Value.float x mark).key? = some k ∧ (Value.float y mark').key? = some k := by
  rw [sameKey]
  by_cases hx : x.isNaN = true
  · have hkey : (Value.float x mark).key? = some (.nan mark) := if_pos hx
    by_cases hy : y.isNaN = true
    · have hkey' : (Value.float y mark').key? = some (.nan mark') := if_pos hy
      rw [if_pos (by rw [hx, hy]; rfl), hkey, hkey', beq_iff_eq]
      constructor
      · rintro rfl
        exact ⟨_, rfl, rfl⟩
      · rintro ⟨k, hk, hk'⟩
        cases hk
        cases hk'
        rfl
    · rw [if_neg fun h => hy (Bool.and_eq_true_iff.1 h).2, @number_float_iff _ _ mark',
        Number.worth?_of_isNaN hx, hkey]
      constructor
      · rintro ⟨k, hk, -⟩
        cases hk
      · rintro ⟨k, hk, hk'⟩
        cases hk
        rw [key?, if_neg hy] at hk'
        obtain ⟨w, -, hw⟩ := Option.map_eq_some_iff.1 hk'
        cases hw
  · have hkey : (Value.float x mark).key? = (Number.float x).worth?.map .number := if_neg hx
    rw [if_neg fun h => hx (Bool.and_eq_true_iff.1 h).1, hkey]
    exact number_float_iff

theorem method_iff {r r' : Value} {m m' : Member} :
    sameKey (.method r m) (.method r' m') = true ↔
      ∃ k, (Value.method r m).key? = some k ∧ (Value.method r' m').key? = some k := by
  simp only [sameKey, key?, Bool.and_eq_true, beq_iff_eq, same_iff, Option.map_eq_some_iff]
  constructor
  · rintro ⟨rfl, i, hr, hr'⟩
    exact ⟨_, ⟨i, hr, rfl⟩, i, hr', rfl⟩
  · rintro ⟨k, ⟨i, hr, rfl⟩, i', hr', heq⟩
    cases heq
    exact ⟨rfl, i, hr, hr'⟩

theorem sameKey_iff {a b : Value} :
    sameKey a b = true ↔ ∃ k, a.key? = some k ∧ b.key? = some k := by
  cases a <;> cases b <;>
    first
    | exact number_eq_iff
    | exact number_float_iff
    | exact float_number_iff
    | exact float_float_iff
    | exact method_iff
    | simp [sameKey, key?, numeric?, number?]; done
    | simp [sameKey, key?, numeric?, number?]; exact eq_comm
    | simp only [sameKey, key?, numeric?, number?]; split <;> simp

theorem sameKey_symm {a b : Value} (h : sameKey a b = true) : sameKey b a = true := by
  obtain ⟨k, ha, hb⟩ := sameKey_iff.1 h
  exact sameKey_iff.2 ⟨k, hb, ha⟩

theorem sameKey_trans {a b c : Value} (h : sameKey a b = true) (h' : sameKey b c = true) :
    sameKey a c = true := by
  obtain ⟨k, ha, hb⟩ := sameKey_iff.1 h
  obtain ⟨k', hb', hc⟩ := sameKey_iff.1 h'
  obtain rfl : k = k' := Option.some.inj (hb.symm.trans hb')
  exact sameKey_iff.2 ⟨k, ha, hc⟩

theorem sameKey_congr {a b : Value} (h : sameKey a b = true) (c : Value) :
    sameKey a c = sameKey b c :=
  Bool.eq_iff_iff.2 ⟨fun hac => sameKey_trans (sameKey_symm h) hac, fun hbc => sameKey_trans h hbc⟩

theorem isNull_of_sameKey_null {v : Value} (h : sameKey .null v = true) : v.isNull = true := by
  cases v with
  | null => rfl
  | _ => cases h

theorem isNull_eq_of_sameKey {a b : Value} (h : sameKey a b = true) : a.isNull = b.isNull := by
  cases a with
  | null => exact (isNull_of_sameKey_null h).symm
  | _ =>
      cases b with
      | null => cases isNull_of_sameKey_null (sameKey_symm h)
      | _ => rfl

theorem isHashable_eq_of_sameKey {a b : Value} (h : sameKey a b = true) :
    a.isHashable = b.isHashable := by
  cases a with
  | list =>
      cases b with
      | list => rfl
      | _ => cases h
  | map =>
      cases b with
      | map => rfl
      | _ => cases h
  | _ =>
      cases b with
      | list => cases h
      | map => cases h
      | _ => rfl

/-! ### Rows of entries -/

theorem find?_put (key value k : Value) (entries : List (Value × Value)) :
    ((match entries.findIdx? fun entry : Value × Value => sameKey entry.1 key with
      | some i => entries.modify i fun entry => (entry.1, value)
      | none => entries ++ [(key, value)]).find?
        fun entry : Value × Value => sameKey entry.1 k).map Prod.snd =
      if sameKey key k then some value
      else (List.find? (fun entry => sameKey entry.1 k) entries).map Prod.snd := by
  induction entries with
  | nil =>
      show (List.find? _ [(key, value)]).map Prod.snd = _
      rw [List.find?_cons]
      cases sameKey key k <;> rfl
  | cons entry rest ih =>
      rw [List.findIdx?_cons]
      cases hkey : sameKey entry.1 key with
      | true =>
          have hcongr := sameKey_congr hkey k
          rw [List.find?_cons, hcongr]
          show (List.find? _ ((entry.1, value) :: rest)).map Prod.snd = _
          rw [List.find?_cons]
          dsimp only
          rw [hcongr]
          cases sameKey key k <;> rfl
      | false =>
          -- an entry of another key is found before and after, and then it was not this key
          have hother : sameKey entry.1 k = true → sameKey key k = false := by
            intro hk
            refine Bool.eq_false_iff.2 fun hk' => ?_
            rw [sameKey_trans hk (sameKey_symm hk')] at hkey
            cases hkey
          cases hfound : rest.findIdx? fun entry => sameKey entry.1 key <;>
            rw [hfound] at ih
          · show (List.find? _ (entry :: (rest ++ [(key, value)]))).map Prod.snd = _
            rw [List.find?_cons, List.find?_cons]
            cases hk : sameKey entry.1 k with
            | true => rw [hother hk]; rfl
            | false => exact ih
          · show (List.find? _ (entry :: rest.modify _ _)).map Prod.snd = _
            rw [List.find?_cons, List.find?_cons]
            cases hk : sameKey entry.1 k with
            | true => rw [hother hk]; rfl
            | false => exact ih

theorem toList_entryPut (entries : Array (Value × Value)) (key value : Value) :
    (entryPut entries key value).toList =
      match entries.toList.findIdx? fun entry => sameKey entry.1 key with
      | some i => entries.toList.modify i fun entry => (entry.1, value)
      | none => entries.toList ++ [(key, value)] := by
  rw [entryPut, ← List.findIdx?_toArray, Array.toArray_toList]
  cases entries.findIdx? fun entry => sameKey entry.1 key with
  | none => exact Array.toList_push
  | some i => exact Array.toList_modify

theorem entryGet?_eq (entries : Array (Value × Value)) (k : Value) :
    entryGet? entries k =
      (entries.toList.find? fun entry => sameKey entry.1 k).map Prod.snd := by
  rw [entryGet?, Array.find?_toList]

/-- **What is found after an entry was put**: its value under the same key, and what was there
before under any other. -/
theorem entryGet?_entryPut (entries : Array (Value × Value)) (key value k : Value) :
    entryGet? (entryPut entries key value) k =
      if sameKey key k then some value else entryGet? entries k := by
  rw [entryGet?_eq, entryGet?_eq, toList_entryPut, find?_put]

end Heap

end TriggerEngine
