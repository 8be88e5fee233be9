/-
**Equality of finite values.**

A value that is built from nothing, truth values, whole numbers, texts and lists has contents: a
finite tree whose leaves are plain.  Scripts compare such values by their contents, and the
comparison finds two values equal exactly if their trees have the same lists in the same places and
like leaves.  What is like differs with the place.  Between the two values themselves a truth value
is like the same truth value only; but inside lists it is also like the number that it counts as.

The comparison is given a number of levels.  It has an answer if they are more than the levels of
one of the two trees; and where it has an answer with fewer, the answer is the same.

Main definitions:

* `Leaf`, `Content` — plain values and finite trees of them;
* `Heap.Holds` — the contents of a value;
* `Content.Agree` — trees of the same form whose leaves are related.

Main results:

* `Heap.equal?_decides` — what the comparison inside lists answers;
* `Heap.valuesEqual?_decides` — **what the comparison of two values answers**.
-/

import TriggerEngine.Proofs.Run.Stepping

set_option autoImplicit false

namespace TriggerEngine

/-! ### Contents -/

/-- A value that has no parts. -/
inductive Leaf where
  | null
  | bool (b : Bool)
  | int (n : Int)
  | text (s : String)
  deriving DecidableEq, Repr

/-- A leaf with truth values as the numbers that they count as. -/
def Leaf.counted : Leaf → Leaf
  | .bool b => .int (if b then 1 else 0)
  | leaf => leaf

/-- Whether a leaf is a truth value. -/
def Leaf.isBool : Leaf → Bool
  | .bool _ => true
  | _ => false

/-- The leaf that a value is. -/
def Value.leaf? : Value → Option Leaf
  | .null => some .null
  | .bool b => some (.bool b)
  | .int n _ => some (.int n)
  | .str s _ => some (.text s)
  | _ => none

/-- The contents of a finite value. -/
inductive Content where
  | leaf (l : Leaf)
  | list (items : List Content)

namespace Content

mutual

/-- Two trees with the same lists in the same places, and related leaves. -/
def Agree (R : Leaf → Leaf → Prop) : Content → Content → Prop
  | .leaf l, .leaf m => R l m
  | .list as, .list bs => AgreeAll R as bs
  | _, _ => False

/-- Two rows of such trees. -/
def AgreeAll (R : Leaf → Leaf → Prop) : List Content → List Content → Prop
  | [], [] => True
  | a :: as, b :: bs => a.Agree R b ∧ AgreeAll R as bs
  | _, _ => False

end

mutual

/-- How many lists stand around the innermost leaf or empty list. -/
def depth : Content → Nat
  | .leaf _ => 0
  | .list items => depthAll items + 1

/-- The depth of the deepest tree of a row. -/
def depthAll : List Content → Nat
  | [] => 0
  | a :: as => max a.depth (depthAll as)

end

/-- Whether a tree is a truth value. -/
def isBool : Content → Bool
  | .leaf l => l.isBool
  | .list _ => false

/-- Leaves that count as the same. -/
def Alike (l m : Leaf) : Prop :=
  l.counted = m.counted

theorem AgreeAll.length_eq {R : Leaf → Leaf → Prop} : ∀ {as bs : List Content},
    AgreeAll R as bs → as.length = bs.length
  | [], [], _ => rfl
  | _ :: _, _ :: _, h => congrArg (· + 1) (length_eq h.2)

end Content

namespace Heap

open Content

variable {h : Heap}

mutual

/-- The contents of a value. -/
def Holds (h : Heap) : Value → Content → Prop
  | x, .leaf l => x.leaf? = some l
  | x, .list items => ∃ ref, x = .list ref ∧ HoldsAll h (h.list ref).toList items

/-- The contents of a row of values. -/
def HoldsAll (h : Heap) : List Value → List Content → Prop
  | [], [] => True
  | x :: xs, a :: as => h.Holds x a ∧ HoldsAll h xs as
  | _, _ => False

end

theorem HoldsAll.length_eq : ∀ {xs : List Value} {as : List Content},
    h.HoldsAll xs as → xs.length = as.length
  | [], [], _ => rfl
  | _ :: _, _ :: _, hxs => congrArg (· + 1) (length_eq hxs.2)

mutual

theorem Holds.agree : (a : Content) → ∀ {x : Value} {b : Content}, h.Holds x a → h.Holds x b →
    a.Agree Content.Alike b
  | .leaf l, x, b, ha, hb => by
      cases b with
      | leaf m => exact congrArg Leaf.counted (Option.some.inj (ha.symm.trans hb))
      | list items =>
          obtain ⟨ref, rfl, -⟩ := hb
          cases ha
  | .list as, x, b, ha, hb => by
      obtain ⟨ref, rfl, ha⟩ := ha
      cases b with
      | leaf m => cases hb
      | list bs =>
          obtain ⟨ref', href, hb⟩ := hb
          obtain rfl := Value.list.inj href
          exact HoldsAll.agree as ha hb

theorem HoldsAll.agree : (as : List Content) → ∀ {xs : List Value} {bs : List Content},
    h.HoldsAll xs as → h.HoldsAll xs bs → AgreeAll Content.Alike as bs
  | [], [], [], _, _ => trivial
  | a :: as, _ :: _, _ :: _, ha, hb => ⟨Holds.agree a ha.1 hb.1, HoldsAll.agree as ha.2 hb.2⟩

end

theorem Holds.of_same {x y : Value} {b : Content} (hy : h.Holds y b) (hsame : x.same y = true) :
    h.Holds x b := by
  cases b with
  | leaf m =>
      have hm : y.leaf? = some m := hy
      show x.leaf? = some m
      rw [← hm]
      cases x <;> cases y <;> simp_all [Value.same, Value.leaf?]
  | list bs =>
      obtain ⟨ref, rfl, hbs⟩ := hy
      refine ⟨ref, ?_, hbs⟩
      cases x <;> simp_all [Value.same]

/-! ### Comparing -/

/-- What a comparison may answer: whether `P` holds, or nothing at all if the levels are not more
than some bound. -/
def Decides (verdict : Option Bool) (P : Prop) (levels bound : Nat) : Prop :=
  (∃ b, verdict = some b ∧ (b = true ↔ P)) ∨ (verdict = none ∧ levels ≤ bound)

theorem Decides.no {P : Prop} {levels bound : Nat} (hP : ¬P) :
    Decides (some false) P levels bound :=
  .inl ⟨false, rfl, by simp [hP]⟩

theorem Decides.both {v w : Option Bool} {P Q : Prop} {levels m k bound : Nat} :
    Decides v P levels m → Decides w Q levels k → m ≤ bound → k ≤ bound →
      Decides (match v with | some true => w | other => other) (P ∧ Q) levels bound := by
  intro hv hw hm hk
  rcases hv with ⟨b, rfl, hP⟩ | ⟨rfl, hle⟩
  · cases b with
    | false => exact .no fun hboth => Bool.false_ne_true (hP.2 hboth.1)
    | true =>
        rcases hw with ⟨c, rfl, hQ⟩ | ⟨rfl, hle⟩
        · exact .inl ⟨c, rfl, hQ.trans (and_iff_right (hP.1 rfl)).symm⟩
        · exact .inr ⟨rfl, hle.trans hk⟩
  · exact .inr ⟨rfl, hle.trans hm⟩

theorem equalPlain_iff {x y : Value} {l m : Leaf} (hx : x.leaf? = some l) (hy : y.leaf? = some m) :
    equalPlain x y = true ↔ Content.Alike l m := by
  cases x <;> cases hx <;> cases y <;> cases hy <;>
    simp
      [equalPlain, sameKey, Content.Alike, Leaf.counted, Value.numeric?, Value.number?, Number.eq,
      Number.compare?]

mutual

/-- **What the comparison inside lists answers.** -/
theorem equal?_decides : (a : Content) → ∀ (levels : Nat) {x y : Value} {b : Content},
    h.Holds x a → h.Holds y b →
      Decides (h.equal? levels x y) (a.Agree Content.Alike b) levels (min a.depth b.depth)
  | _, 0, _, _, _, _, _ => .inr ⟨rfl, Nat.zero_le _⟩
  | .leaf l, levels + 1, x, y, b, hx, hy => by
      have hl : x.leaf? = some l := hx
      cases b with
      | leaf m =>
          refine .inl ⟨equalPlain x y, ?_, equalPlain_iff hx hy⟩
          cases x <;> cases hl <;> cases y <;> cases hy <;> rfl
      | list bs =>
          obtain ⟨ref, rfl, -⟩ := hy
          have hno : h.equal? (levels + 1) x (.list ref) = some false := by
            cases x <;> cases hl <;> rfl
          rw [hno]
          exact .no id
  | .list as, levels + 1, x, y, b, hx, hy => by
      obtain ⟨r, rfl, hxs⟩ := hx
      cases b with
      | leaf m =>
          have hno : h.equal? (levels + 1) (.list r) y = some false := by
            cases y <;> cases hy <;> rfl
          rw [hno]
          exact .no id
      | list bs =>
          obtain ⟨s, rfl, hys⟩ := hy
          rw [equal?]
          -- rows of different sizes are told apart before any of their parts is compared
          split
          · rcases equalRows_decides as levels hxs hys with hrow | ⟨hnone, hle⟩
            · exact .inl hrow
            · exact .inr ⟨hnone, by simp only [depth]; omega⟩
          · rename_i hsize
            refine .no fun hagree => hsize ?_
            have hlen := hxs.length_eq.trans ((AgreeAll.length_eq hagree).trans hys.length_eq.symm)
            simpa using hlen

theorem equalRows_decides : (as : List Content) → ∀ (levels : Nat) {xs ys : List Value}
    {bs : List Content}, h.HoldsAll xs as → h.HoldsAll ys bs →
      Decides (equalRows (h.equal? levels) xs ys) (AgreeAll Content.Alike as bs) levels
        (min (depthAll as) (depthAll bs))
  | [], _, [], [], [], _, _ => .inl ⟨true, rfl, iff_of_true rfl trivial⟩
  | [], _, [], _ :: _, _ :: _, _, _ => .no id
  | _ :: _, _, _ :: _, [], [], _, _ => .no id
  | a :: as, levels, x :: xs, y :: ys, b :: bs, hxs, hys => by
      have hrow := equalRows_decides as levels hxs.2 hys.2
      rw [equalRows]
      split
      · rename_i hsame
        have hsure : Decides (some true) (a.Agree Content.Alike b) levels 0 :=
          .inl ⟨true, rfl, iff_of_true rfl (Holds.agree a hxs.1 (hys.1.of_same hsame))⟩
        exact hsure.both hrow (Nat.zero_le _) (by simp only [depthAll]; omega)
      · exact (equal?_decides a levels hxs.1 hys.1).both hrow
          (by simp only [depthAll]; omega) (by simp only [depthAll]; omega)

end

theorem isBool_eq {x : Value} {a : Content} (hx : h.Holds x a) : x.isBool = a.isBool := by
  cases a with
  | leaf l => cases x <;> cases hx <;> rfl
  | list as =>
      obtain ⟨ref, rfl, -⟩ := hx
      rfl

theorem valuesEqual?_decides {x y : Value} {a b : Content} (hx : h.Holds x a) (hy : h.Holds y b)
    (levels : Nat) : Decides (h.valuesEqual? levels x y)
      (a.Agree Content.Alike b ∧ a.isBool = b.isBool) levels (min a.depth b.depth) := by
  rw [valuesEqual?, isBool_eq hx, isBool_eq hy]
  by_cases hbool : a.isBool = b.isBool
  · simpa [hbool] using equal?_decides a levels hx hy
  · rw [if_pos (bne_iff_ne.2 hbool)]
    exact .no fun hboth => hbool hboth.2

end Heap

/-- **Equality of finite values.**  If the world has no answer of its own, two values are equal for
a script exactly if their contents have the same lists in the same places and leaves that count as
the same, and both values or none of them is a truth value.  There is no answer only if both are too
deep for the levels that are left. -/
theorem valuesEqual_iff_agree {ω τ : Type} {s : State ω τ} {x y : Value} {a b : Content}
    (hx : s.heap.Holds x a) (hy : s.heap.Holds y b) (env : Setting ω τ) (room : Nat)
    (hsilent : env.binding.consult room (.equality x y) s.heap s.world =
      (.ok none, s.heap, s.world)) :
    (∃ verdict, (Exec.valuesEqual env room x y).runFrom s = (.ok verdict, s) ∧
        (verdict = true ↔ a.Agree Content.Alike b ∧ a.isBool = b.isBool)) ∨
      ((Exec.valuesEqual env room x y).runFrom s = (.error (.fault ListMember.tooDeep), s) ∧
        room ≤ min a.depth b.depth) := by
  have hasked : (Exec.consult env room (.equality x y)).runFrom s = (.ok none, s) := by
    rw [Exec.consult, show (Exec.onWorld _).runFrom s = _ from Exec.runFrom_onWorld _ _ _ _ _,
      hsilent]
    rfl
  rw [Exec.valuesEqual, Exec.runFrom_bind_of_ok hasked, Exec.runFrom_read]
  rcases Heap.valuesEqual?_decides hx hy room with ⟨verdict, hverdict, hiff⟩ | ⟨hnone, hle⟩
  · rw [hverdict]
    exact .inl ⟨verdict, rfl, hiff⟩
  · rw [hnone]
    exact .inr ⟨rfl, hle⟩

/-- `[[false], "a"]` and `[[0], "a"]`, for a host on its own. -/
theorem valuesEqual_iff_agree_nested :
    let env : Setting Host Unit := ⟨Host.binding, Config.default.limits, none, .null⟩
    let s : State Host Unit := ⟨{ lists := #[#[.bool false], #[.list 0, .text "a"],
      #[.whole 0], #[.list 2, .text "a"]] }, {}, .start .empty, ()⟩
    let a : Content := .list [.list [.leaf (.bool false)], .leaf (.text "a")]
    let b : Content := .list [.list [.leaf (.int 0)], .leaf (.text "a")]
    s.heap.Holds (.list 1) a ∧ s.heap.Holds (.list 3) b ∧
      ((∃ verdict, (Exec.valuesEqual env 3 (.list 1) (.list 3)).runFrom s = (.ok verdict, s) ∧
          (verdict = true ↔ a.Agree Content.Alike b ∧ a.isBool = b.isBool)) ∨
        ((Exec.valuesEqual env 3 (.list 1) (.list 3)).runFrom s =
            (.error (.fault ListMember.tooDeep), s) ∧ 3 ≤ min a.depth b.depth)) := by
  intro env s a b
  have ha : s.heap.Holds (.list 1) a := ⟨1, rfl, ⟨0, rfl, rfl, trivial⟩, rfl, trivial⟩
  have hb : s.heap.Holds (.list 3) b := ⟨3, rfl, ⟨2, rfl, rfl, trivial⟩, rfl, trivial⟩
  exact ⟨ha, hb, valuesEqual_iff_agree ha hb env 3 rfl⟩

/-- `[true]` equals `[1]`, although their leaves are not the same. -/
theorem valuesEqual_bool_number :
    let env : Setting Host Unit := ⟨Host.binding, Config.default.limits, none, .null⟩
    let s : State Host Unit := ⟨{ lists := #[#[.bool true], #[.whole 1]] }, {}, .start .empty, ()⟩
    let a : Content := .list [.leaf (.bool true)]
    let b : Content := .list [.leaf (.int 1)]
    s.heap.Holds (.list 0) a ∧ s.heap.Holds (.list 1) b ∧
      (Exec.valuesEqual env 3 (.list 0) (.list 1)).runFrom s = (.ok true, s) ∧
      ¬a.Agree (· = ·) b :=
  ⟨⟨0, rfl, rfl, trivial⟩, ⟨1, rfl, rfl, trivial⟩, rfl, fun h => nomatch h.1⟩

end TriggerEngine
