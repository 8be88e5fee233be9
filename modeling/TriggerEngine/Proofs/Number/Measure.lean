/-
**What numbers are worth.**

Whole numbers and finite doubles are multiples of one unit, the least positive double.  So each of
them is worth a whole number of units, and numbers of both kinds can be compared by what they are
worth.  This module shows that the equality of numbers does so: it holds exactly between numbers
that are worth the same, and is therefore an equivalence on all but the values that are no
numbers.

A double is looked at through its bits where it is read, and through the sign, mantissa and
exponent of its logical model where it is compared.  The two views agree.

Main definitions:

* `Number.Kind.ofUnpacked` — the kind of a double as its logical model gives it;
* `Number.Finite.IsCanonical` — the parts that doubles have;
* `Number.Worth`, `Number.worth?` — what a number is worth.

Main results:

* `Number.decode_eq` — the bits of a double and its logical model agree;
* `Number.Finite.IsCanonical.eq_of_units` — doubles that are worth the same have the same parts;
* `Number.eq_iff` — **numbers are equal exactly if they are worth the same**.
-/

import Mathlib
import TriggerEngine.Number.Basic

set_option autoImplicit false

namespace TriggerEngine.Number

open Float.Model Float.Model.UnpackedFloat

/-! ### Two views of a double -/

theorem toNat_unpackMantissa (b : BitVec 64) :
    (@unpackMantissa Format.binary64 b).toNat = b.toNat % 2 ^ 52 := by
  simp [unpackMantissa, BitVec.extractLsb]

theorem toNat_unpackExponent (b : BitVec 64) :
    (@unpackExponent Format.binary64 b).toNat = b.toNat / 2 ^ 52 % 2 ^ 11 := by
  simp [unpackExponent, BitVec.extractLsb, Nat.shiftRight_eq_div_pow]

theorem toNat_unpackSign (b : BitVec 64) :
    (@unpackSign Format.binary64 b).toNat = b.toNat / 2 ^ 63 := by
  have hb := b.isLt
  simp only [unpackSign, BitVec.extractLsb, BitVec.toNat_cast, BitVec.extractLsb'_toNat,
    Nat.shiftRight_eq_div_pow]
  omega

theorem toNat_leadingOne (v : BitVec 52) : (1#1 ++ v).toNat = 2 ^ 52 + v.toNat := by
  rw [BitVec.toNat_append, ← Nat.shiftLeft_add_eq_or_of_lt v.isLt]
  rfl

/-- Whether a sign is the one of negative numbers. -/
def isNegative : Sign → Bool
  | .negative => true
  | .positive => false

theorem isNegative_ofBitVec (b : BitVec 1) : isNegative (Sign.ofBitVec b) = (b.toNat == 1) := by
  revert b
  decide

/-- The kind of a double as its logical model gives it. -/
def Kind.ofUnpacked : UnpackedFloat → Kind
  | .notANumber => .nan
  | .infinity s => .infinite (isNegative s)
  | .zero s => .finite ⟨isNegative s, 0, -1074⟩
  | .finite s m e _ => .finite ⟨isNegative s, m, e⟩

theorem decode_eq (x : Float) : decode x = .ofUnpacked x.toModel.unpack := by
  have hm := toNat_unpackMantissa x.toBits.toBitVec
  have he := toNat_unpackExponent x.toBits.toBitVec
  have hs := isNegative_ofBitVec (@unpackSign Format.binary64 x.toBits.toBitVec)
  rw [toNat_unpackSign] at hs
  change _ = x.toBits.toNat % _ at hm
  change _ = x.toBits.toNat / _ % _ at he
  change _ = (x.toBits.toNat / _ == 1) at hs
  have hmax : @unpackExponent Format.binary64 x.toBits.toBitVec = -1#_ ↔
      x.toBits.toNat / 2 ^ 52 % 2 ^ 11 = 2047 := by
    rw [← BitVec.toNat_inj, he]
    rfl
  have hmin : @unpackExponent Format.binary64 x.toBits.toBitVec = 0#_ ↔
      x.toBits.toNat / 2 ^ 52 % 2 ^ 11 = 0 := by
    rw [← BitVec.toNat_inj, he]
    rfl
  have hnone : @unpackMantissa Format.binary64 x.toBits.toBitVec = 0#_ ↔
      x.toBits.toNat % 2 ^ 52 = 0 := by
    rw [← BitVec.toNat_inj, hm]
    rfl
  show decode x = .ofUnpacked (UnpackedFloat.unpack Format.binary64 x.toBits.toBitVec)
  unfold decode UnpackedFloat.unpack
  dsimp only
  split
  · rename_i h
    rw [if_pos (hmax.2 (beq_iff_eq.1 h))]
    split
    · rename_i h
      rw [if_pos (hnone.2 (beq_iff_eq.1 h)), Kind.ofUnpacked, hs]
    · rename_i h
      rw [if_neg fun h' => h (beq_iff_eq.2 (hnone.1 h')), Kind.ofUnpacked]
  · rename_i h
    rw [if_neg fun h' => h (beq_iff_eq.2 (hmax.1 h'))]
    split
    · rename_i h
      rw [if_pos (hmin.2 (beq_iff_eq.1 h))]
      split
      · rename_i hzero
        rw [Kind.ofUnpacked, hs, hnone.1 hzero]
      · rw [Kind.ofUnpacked, hs, hm, he, beq_iff_eq.1 h]
        rfl
    · rename_i h
      rw [if_neg fun h' => h (beq_iff_eq.2 (hmin.1 h')), Kind.ofUnpacked, hs, he,
        toNat_leadingOne, hm]
      rfl

/-! ### The parts of a double -/

namespace Finite

/-- The parts that doubles have: the mantissa fills its 53 bits unless the exponent is the least
one. -/
structure IsCanonical (parts : Finite) : Prop where
  mantissa_lt : parts.mantissa < 2 ^ 53
  exponent_ge : -1074 ≤ parts.exponent
  exponent_le : parts.exponent ≤ 971
  full : 2 ^ 52 ≤ parts.mantissa ∨ parts.exponent = -1074

/-- How many units a double is away from zero. -/
def units (parts : Finite) : Nat :=
  parts.mantissa * 2 ^ (parts.exponent + 1074).toNat

theorem units_lt_of_exponent_lt {p q : Finite} (hp : p.IsCanonical) (hq : q.IsCanonical)
    (h : p.exponent < q.exponent) : p.units < q.units := by
  have hp' := hp.exponent_ge
  have hfull : 2 ^ 52 ≤ q.mantissa := hq.full.resolve_right (by omega)
  have hpow : 2 ^ (p.exponent + 1074).toNat * 2 ≤ 2 ^ (q.exponent + 1074).toNat := by
    rw [← Nat.pow_succ]
    exact Nat.pow_le_pow_right (by decide) (by omega)
  calc p.units
      < 2 ^ 53 * 2 ^ (p.exponent + 1074).toNat :=
        Nat.mul_lt_mul_of_pos_right hp.mantissa_lt (Nat.two_pow_pos _)
    _ = 2 ^ 52 * (2 ^ (p.exponent + 1074).toNat * 2) := by omega
    _ ≤ q.units := Nat.mul_le_mul hfull hpow

theorem IsCanonical.eq_of_units {p q : Finite} (hp : p.IsCanonical) (hq : q.IsCanonical)
    (h : p.units = q.units) : p.mantissa = q.mantissa ∧ p.exponent = q.exponent := by
  rcases Int.lt_trichotomy p.exponent q.exponent with hlt | heq | hlt
  · exact absurd h (Nat.ne_of_lt (units_lt_of_exponent_lt hp hq hlt))
  · refine ⟨?_, heq⟩
    unfold units at h
    rw [heq] at h
    exact Nat.eq_of_mul_eq_mul_right (Nat.two_pow_pos _) h
  · exact absurd h.symm (Nat.ne_of_lt (units_lt_of_exponent_lt hq hp hlt))

end Finite

theorem isCanonical_of_decode {x : Float} {parts : Finite} (h : decode x = .finite parts) :
    parts.IsCanonical := by
  have hbits := x.toBits.toNat_lt
  unfold decode at h
  dsimp only at h
  split at h
  · split at h <;> cases h
  · rename_i hmax
    rw [beq_iff_eq] at hmax
    split at h
    · cases h
      exact ⟨by dsimp only; omega, Int.le_refl _, by dsimp only; omega, .inr rfl⟩
    · rename_i hmin
      rw [beq_iff_eq] at hmin
      cases h
      exact ⟨by dsimp only; omega, by dsimp only; omega, by dsimp only; omega,
        .inl (by dsimp only; omega)⟩

/-! ### Worth -/

/-- What a number is worth: so many units, or more than any number of them. -/
inductive Worth where
  | units (n : Int)
  | infinite (negative : Bool)

/-- The power of two by which the unit is smaller than one. -/
def unitExponent : Nat := 1074

/-- How many units one is worth. -/
def unitsPerOne : Nat := 2 ^ unitExponent

/-- What a double is worth, if it is a number. -/
def Kind.worth? : Kind → Option Worth
  | .finite parts => some (.units (signed parts.negative parts.units))
  | .infinite negative => some (.infinite negative)
  | .nan => none

/-- What a number is worth, unless it is a value that is no number. -/
def worth? : Number → Option Worth
  | .int n => some (.units (n * unitsPerOne))
  | .float x => (decode x).worth?

theorem unitsPerOne_pos : 0 < unitsPerOne := Nat.two_pow_pos unitExponent

theorem exists_scale {parts : Finite} (h : parts.IsCanonical) :
    ∃ c, 0 < c ∧ unitsPerOne = (exactRatio parts).2 * c ∧ parts.units = (exactRatio parts).1 * c := by
  have hge := h.exponent_ge
  unfold exactRatio Finite.units
  split
  · refine ⟨unitsPerOne, unitsPerOne_pos, (Nat.one_mul _).symm, ?_⟩
    have hexp : (parts.exponent + 1074).toNat = parts.exponent.toNat + unitExponent := by
      unfold unitExponent
      omega
    rw [hexp, Nat.pow_add, ← Nat.mul_assoc, unitsPerOne]
  · refine ⟨2 ^ (parts.exponent + 1074).toNat, Nat.two_pow_pos _, ?_, rfl⟩
    have hexp : (-parts.exponent).toNat + (parts.exponent + 1074).toNat = unitExponent := by
      unfold unitExponent
      omega
    rw [← Nat.pow_add, hexp, unitsPerOne]

theorem signed_mul (negative : Bool) (n c : Nat) :
    signed negative (n * c) = signed negative n * c := by
  unfold signed
  split
  · rw [Int.natCast_mul, Int.neg_mul]
  · rw [Int.natCast_mul]

theorem compareInt_eq_iff (n : Int) {parts : Finite} (h : parts.IsCanonical) :
    compareInt n parts = .eq ↔ n * unitsPerOne = signed parts.negative parts.units := by
  obtain ⟨c, hc, hone, hunits⟩ := exists_scale h
  rw [hone, hunits, signed_mul, Int.natCast_mul, ← Int.mul_assoc]
  unfold compareInt
  dsimp only
  rw [Int.compare_eq_eq]
  exact (Int.mul_eq_mul_right_iff (by omega)).symm

theorem signed_eq_iff {s t : Bool} {m n : Nat} (hm : 0 < m) :
    signed s m = signed t n ↔ s = t ∧ m = n := by
  cases s <;> cases t <;> simp [signed] <;> omega

theorem units_zero (negative : Bool) (exponent : Int) :
    (⟨negative, 0, exponent⟩ : Finite).units = 0 :=
  Nat.zero_mul _

theorem units_pos {parts : Finite} (h : 0 < parts.mantissa) : 0 < parts.units :=
  Nat.mul_pos h (Nat.two_pow_pos _)

theorem compare_parts_iff {p q : Finite} (hp : p.IsCanonical) (hq : q.IsCanonical) :
    (compare p.exponent q.exponent).then (compare p.mantissa q.mantissa) = .eq ↔
      p.units = q.units := by
  rw [Ordering.then_eq_eq, Int.compare_eq_eq, Nat.compare_eq_eq]
  constructor
  · rintro ⟨he, hm⟩
    rw [Finite.units, Finite.units, he, hm]
  · intro h
    obtain ⟨hm, he⟩ := hp.eq_of_units hq h
    exact ⟨he, hm⟩

theorem some_worth_iff {a b : Worth} : (∃ w, some a = some w ∧ some b = some w) ↔ a = b := by
  constructor
  · rintro ⟨w, ⟨⟩, ⟨⟩⟩
    rfl
  · rintro rfl
    exact ⟨a, rfl, rfl⟩

theorem compare_eq_some_eq_iff {u v : UnpackedFloat}
    (hu : ∀ parts, Kind.ofUnpacked u = .finite parts → parts.IsCanonical)
    (hv : ∀ parts, Kind.ofUnpacked v = .finite parts → parts.IsCanonical) :
    u.compare v = some .eq ↔
      ∃ w, (Kind.ofUnpacked u).worth? = some w ∧ (Kind.ofUnpacked v).worth? = some w := by
  cases u with
  | notANumber => simp [UnpackedFloat.compare, Kind.ofUnpacked, Kind.worth?]
  | infinity s =>
      cases v with
      | notANumber => simp [UnpackedFloat.compare, Kind.ofUnpacked, Kind.worth?]
      | infinity s' =>
          refine Iff.trans ?_ some_worth_iff.symm
          cases s <;> cases s' <;> simp [UnpackedFloat.compare, compare, isNegative]
      | zero | finite =>
          refine Iff.trans ?_ some_worth_iff.symm
          cases s <;> simp [UnpackedFloat.compare]
  | zero s =>
      cases v with
      | notANumber => simp [UnpackedFloat.compare, Kind.ofUnpacked, Kind.worth?]
      | infinity s' =>
          refine Iff.trans ?_ some_worth_iff.symm
          cases s' <;> simp [UnpackedFloat.compare]
      | zero s' =>
          refine Iff.trans ?_ some_worth_iff.symm
          cases s <;> cases s' <;> simp [UnpackedFloat.compare, signed, Finite.units]
      | finite s' m' e' hm' =>
          refine Iff.trans ?_ some_worth_iff.symm
          rw [Worth.units.injEq, @eq_comm Int, signed_eq_iff (units_pos hm'), units_zero]
          have hpos : (⟨isNegative s', m', e'⟩ : Finite).units ≠ 0 :=
            Nat.ne_of_gt (units_pos hm')
          cases s' <;> simp [UnpackedFloat.compare, hpos]
  | finite s m e hm =>
      cases v with
      | notANumber => simp [UnpackedFloat.compare, Kind.ofUnpacked, Kind.worth?]
      | infinity s' =>
          refine Iff.trans ?_ some_worth_iff.symm
          cases s' <;> simp [UnpackedFloat.compare]
      | zero s' =>
          refine Iff.trans ?_ some_worth_iff.symm
          rw [Worth.units.injEq, signed_eq_iff (units_pos hm), units_zero]
          have hpos : (⟨isNegative s, m, e⟩ : Finite).units ≠ 0 := Nat.ne_of_gt (units_pos hm)
          cases s <;> simp [UnpackedFloat.compare, hpos]
      | finite s' m' e' hm' =>
          refine Iff.trans ?_ some_worth_iff.symm
          rw [Worth.units.injEq, signed_eq_iff (units_pos hm),
            ← compare_parts_iff (hu _ rfl) (hv _ rfl)]
          cases s <;> cases s' <;> simp [UnpackedFloat.compare, isNegative]

theorem eq_float_iff {x y : Float} :
    (Number.float x).eq (.float y) = true ↔
      ∃ w, (decode x).worth? = some w ∧ (decode y).worth? = some w := by
  have hx := @isCanonical_of_decode x
  have hy := @isCanonical_of_decode y
  rw [decode_eq] at hx hy ⊢
  rw [decode_eq, ← compare_eq_some_eq_iff (fun _ => hx) fun _ => hy]
  have hlt : x < y ↔ x.toModel.unpack.compare y.toModel.unpack = some .lt := by
    refine Iff.trans decide_eq_true_iff ?_
    show (x.toModel.unpack.compare y.toModel.unpack == some .lt) = true ↔ _
    exact beq_iff_eq
  have heq : (x == y) = true ↔ x.toModel.unpack.compare y.toModel.unpack = some .eq := by
    show (x.toModel.unpack.compare y.toModel.unpack == some .eq) = true ↔ _
    exact beq_iff_eq
  rw [Number.eq, compare?, ← heq, beq_iff_eq]
  by_cases hless : x < y
  · rw [if_pos hless, heq, hlt.1 hless]
  · rw [if_neg hless]
    by_cases hsame : (x == y) = true
    · rw [if_pos hsame]
      exact ⟨fun _ => hsame, fun _ => rfl⟩
    · rw [if_neg hsame]
      refine ⟨fun h => ?_, fun h => absurd h hsame⟩
      split at h <;> cases h

theorem eq_mixed_iff {n : Int} {x : Float} :
    compareMixed n x = some .eq ↔ (decode x).worth? = some (.units (n * unitsPerOne)) := by
  unfold compareMixed
  split
  · rename_i h
    rw [h]
    exact ⟨nofun, nofun⟩
  · rename_i negative h
    rw [h]
    cases negative <;> exact ⟨nofun, nofun⟩
  · rename_i parts h
    rw [h, Option.some.injEq, compareInt_eq_iff n (isCanonical_of_decode h), Kind.worth?,
      Option.some.injEq, Worth.units.injEq, eq_comm]

/-- **Numbers are equal exactly if they are worth the same.** -/
theorem eq_iff {a b : Number} :
    a.eq b = true ↔ ∃ w, a.worth? = some w ∧ b.worth? = some w := by
  cases a with
  | int n =>
      cases b with
      | int k =>
          rw [Number.eq, compare?, beq_iff_eq, Option.some.injEq, Int.compare_eq_eq]
          refine Iff.trans ?_ some_worth_iff.symm
          rw [Worth.units.injEq, Int.mul_eq_mul_right_iff (Int.natCast_ne_zero.2
            (Nat.ne_of_gt unitsPerOne_pos))]
      | float y =>
          rw [Number.eq, compare?, beq_iff_eq, eq_mixed_iff]
          exact ⟨fun h => ⟨_, rfl, h⟩, fun ⟨_, h, h'⟩ => h'.trans h.symm⟩
  | float x =>
      cases b with
      | int k =>
          rw [Number.eq, compare?, beq_iff_eq]
          have hswap : (compareMixed k x).map Ordering.swap = some .eq ↔
              compareMixed k x = some .eq := by
            cases compareMixed k x with
            | none => exact ⟨nofun, nofun⟩
            | some ordering => cases ordering <;> simp
          rw [hswap, eq_mixed_iff]
          exact ⟨fun h => ⟨_, h, rfl⟩, fun ⟨_, h, h'⟩ => h.trans h'.symm⟩
      | float y => exact eq_float_iff

theorem eq_symm {a b : Number} (h : a.eq b = true) : b.eq a = true := by
  obtain ⟨w, ha, hb⟩ := eq_iff.1 h
  exact eq_iff.2 ⟨w, hb, ha⟩

/-! ### Rounding up -/

theorem exactRatio_snd_pos (parts : Finite) : 0 < (exactRatio parts).2 := by
  unfold exactRatio
  split
  · exact Nat.one_pos
  · exact Nat.two_pow_pos _

theorem exactRatio_fst_lt {parts : Finite} (h : parts.IsCanonical) :
    (exactRatio parts).1 < 2 ^ unitExponent := by
  have hunit : unitExponent = 1074 := rfl
  unfold exactRatio
  split
  · have hexponent : 53 + parts.exponent.toNat ≤ unitExponent := by
      have := h.exponent_le
      omega
    calc parts.mantissa * 2 ^ parts.exponent.toNat
        < 2 ^ 53 * 2 ^ parts.exponent.toNat :=
          Nat.mul_lt_mul_of_pos_right h.mantissa_lt (Nat.two_pow_pos _)
      _ = 2 ^ (53 + parts.exponent.toNat) := (Nat.pow_add 2 53 _).symm
      _ ≤ 2 ^ unitExponent := Nat.pow_le_pow_right Nat.two_pos hexponent
  · exact Nat.lt_of_lt_of_le h.mantissa_lt (Nat.pow_le_pow_right Nat.two_pos (by omega))

theorem natAbs_ceil_le (parts : Finite) : (ceil parts).natAbs ≤ (exactRatio parts).1 := by
  have hden := exactRatio_snd_pos parts
  unfold ceil
  generalize exactRatio parts = ratio at hden
  obtain ⟨num, den⟩ := ratio
  dsimp only at hden ⊢
  split
  · rw [Int.natAbs_neg, Int.natAbs_natCast]
    exact Nat.div_le_self num den
  · rw [Int.natAbs_natCast]
    refine Nat.le_of_lt_succ (Nat.div_lt_of_lt_mul ?_)
    have hnum : num ≤ den * num := Nat.le_mul_of_pos_left num hden
    rw [Nat.mul_succ]
    omega

theorem intText?_ceil {parts : Finite} (h : parts.IsCanonical) :
    intText? (ceil parts) = some (intText (ceil parts)) := by
  have hlt := calc (ceil parts).natAbs
      ≤ (exactRatio parts).1 := natAbs_ceil_le parts
    _ < 2 ^ unitExponent := exactRatio_fst_lt h
    _ ≤ 10 ^ unitExponent := Nat.pow_le_pow_left (by decide) _
    _ ≤ 10 ^ maxDigits := Nat.pow_le_pow_right (by decide) (by decide)
  exact if_pos hlt

end TriggerEngine.Number
