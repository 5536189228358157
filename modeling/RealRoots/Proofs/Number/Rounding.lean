import RealRoots.Proofs.Number.Doubles

/-!
# Rounding a number that is a double already

A number is rounded to the grid of its size: mantissa and exponent are brought to 53 bits, or to the
least exponent. Doubles lie on their own grid, so nothing is lost of them.

* `round_mul`: which mantissa and exponent spell the number is irrelevant.
* `round_self`: a number on its own grid is not rounded.
* `isCanonical_of_unpack`, `unpack_pack_finite`: the parts of finite doubles are the canonical ones,
  and these survive packing.
-/

namespace RealRoots

open Float.Model Float.Model.UnpackedFloat

/-! ## Binary logarithms -/

theorem log2_mul_two_pow {n : Nat} (h : n ≠ 0) (k : Nat) : (n * 2 ^ k).log2 = n.log2 + k := by
  have hpow : 0 < 2 ^ k := Nat.two_pow_pos k
  rw [Nat.log2_eq_iff (Nat.mul_ne_zero h hpow.ne')]
  constructor
  · rw [Nat.pow_add]
    exact Nat.mul_le_mul_right _ (Nat.log2_self_le h)
  · rw [Nat.add_right_comm, Nat.pow_add]
    exact Nat.mul_lt_mul_of_pos_right Nat.lt_log2_self hpow

theorem log2_mul_le {m n : Nat} (hm : m ≠ 0) (hn : n ≠ 0) :
    (m * n).log2 ≤ m.log2 + n.log2 + 1 := by
  have hlt : m * n < 2 ^ (m.log2 + n.log2 + 1 + 1) := by
    have hpow : 2 ^ (m.log2 + n.log2 + 1 + 1) = 2 ^ (m.log2 + 1) * 2 ^ (n.log2 + 1) := by
      rw [← Nat.pow_add]
      congr 1
      omega
    rw [hpow]
    exact Nat.mul_lt_mul'' Nat.lt_log2_self Nat.lt_log2_self
  have := (Nat.log2_lt (Nat.mul_ne_zero hm hn)).2 hlt
  omega

/-! ## Numbers on the grid -/

/-- The exponent of the grid that `m * 2 ^ e` is rounded to: the mantissa gets 53 bits, unless the
exponent would be below the least one. -/
abbrev gridExponent (m : Nat) (e : Int) : Int :=
  Format.binary64.targetExponent (totalExponent m e)

theorem gridExponent_eq (m : Nat) (e : Int) :
    gridExponent m e = max (m.log2 + 1 + e - 53) (-1074) :=
  rfl

/-- A mantissa with nothing lost below it. -/
abbrev bare (m : Nat) : ExtendedMantissa :=
  ⟨m, false, false⟩

theorem shiftRight_succ (em : ExtendedMantissa) (k : Nat) :
    em >>> (k + 1) = (em >>> k).shiftRightOne :=
  rfl

theorem shiftRight_add (em : ExtendedMantissa) (k a : Nat) : em >>> (k + a) = em >>> k >>> a := by
  induction a with
  | zero => rfl
  | succ a ih => rw [Nat.add_succ, shiftRight_succ, shiftRight_succ, ih]

theorem shiftRight_bare (n k : Nat) : bare (n * 2 ^ k) >>> k = bare n := by
  induction k generalizing n with
  | zero => rw [Nat.pow_zero, Nat.mul_one]; rfl
  | succ k ih =>
    rw [Nat.pow_succ', ← Nat.mul_assoc, shiftRight_succ, ih]
    simp [ExtendedMantissa.shiftRightOne]

theorem shiftToGrid_eq (m : Nat) (e : Int) :
    shiftToTargetExponent Format.binary64 m e .exact =
      (bare m >>> (gridExponent m e - e).toNat, e + (gridExponent m e - e).toNat) :=
  rfl

theorem shiftToGrid_mul {n : Nat} {e : Int} (hn : n ≠ 0) (h : e ≤ gridExponent n e) (k : Nat) :
    shiftToTargetExponent Format.binary64 (n * 2 ^ k) (e - k) .exact =
      shiftToTargetExponent Format.binary64 n e .exact := by
  have hgrid : gridExponent (n * 2 ^ k) (e - k) = gridExponent n e := by
    rw [gridExponent_eq, gridExponent_eq, log2_mul_two_pow hn]
    omega
  have hshift : (gridExponent n e - (e - k)).toNat = k + (gridExponent n e - e).toNat := by omega
  rw [shiftToGrid_eq, shiftToGrid_eq, hgrid, hshift, shiftRight_add, shiftRight_bare]
  congr 1
  omega

/-- **Rounding is of the number and not of its spelling**: a mantissa may have been shifted up. -/
theorem round_mul {n : Nat} {e : Int} (s : Sign) (hn : n ≠ 0) (h : e ≤ gridExponent n e)
    (k : Nat) :
    roundWithAccuracy Format.binary64 s (n * 2 ^ k) (e - k) .exact =
      roundWithAccuracy Format.binary64 s n e .exact := by
  rw [roundWithAccuracy, shiftToGrid_mul hn h, roundWithAccuracy]

theorem shiftToGrid_self {m : Nat} {e : Int} (h : gridExponent m e = e) :
    shiftToTargetExponent Format.binary64 m e .exact = (bare m, e) := by
  rw [shiftToGrid_eq, h, Int.sub_self, Int.toNat_zero, Nat.cast_zero, Int.add_zero]
  rfl

/-- **A number on its own grid is not rounded.** -/
theorem round_self {m : Nat} {e : Int} (s : Sign) (hm : 0 < m) (h : gridExponent m e = e) :
    roundWithAccuracy Format.binary64 s m e .exact = .finite s m e hm := by
  have hrounded : (bare m).roundedMantissa = m := rfl
  rw [roundWithAccuracy, shiftToGrid_self h]
  simp only [hrounded, shiftToGrid_self h]
  rw [dif_neg hm.ne']

/-! ## The parts of a finite double -/

/-- Mantissa and exponent of a finite double that is not zero. -/
structure IsCanonical (m : Nat) (e : Int) : Prop where
  pos : 0 < m
  onGrid : gridExponent m e = e
  small : e ≤ 971

/-- **What unpacking finds is canonical.** -/
theorem isCanonical_of_unpack {b : BitVec Format.binary64.numBits} {s : Sign} {m : Nat} {e : Int}
    {hm : 0 < m} (h : UnpackedFloat.unpack Format.binary64 b = .finite s m e hm) :
    IsCanonical m e := by
  have hmantissa : (unpackMantissa b).toNat < 2 ^ 52 := (unpackMantissa b).isLt
  have hexponent : (unpackExponent b).toNat < 2 ^ 11 := (unpackExponent b).isLt
  rw [unpack_eq] at h
  by_cases hones : unpackExponent b = -1#11
  · rw [if_pos hones] at h
    split at h <;> cases h
  · rw [if_neg hones] at h
    by_cases hsmall : unpackExponent b = 0#11
    · rw [if_pos hsmall] at h
      by_cases hzero : unpackMantissa b = 0#52
      · rw [dif_pos hzero] at h
        cases h
      · -- A subnormal has the least exponent.
        rw [dif_neg hzero, hsmall] at h
        injection h with _ hmant hexp
        subst hmant hexp
        refine ⟨hm, ?_, by decide⟩
        have hlog : (unpackMantissa b).toNat.log2 < 52 := by
          rwa [Nat.log2_lt hm.ne']
        have hleast : ((0#11).toNat : Int) - (1023 + 52) + 1 = -1074 := rfl
        rw [gridExponent_eq, hleast]
        omega
    · rw [if_neg hsmall] at h
      have hlog : (1#1 ++ unpackMantissa b).toNat.log2 = 52 := by
        rw [toNat_leading_append, Nat.log2_eq_iff] <;> omega
      have hfits : (unpackExponent b).toNat ≠ 2047 := fun h => hones (BitVec.eq_of_toNat_eq h)
      have hpos : (unpackExponent b).toNat ≠ 0 := fun h => hsmall (BitVec.eq_of_toNat_eq h)
      injection h with _ hmant hexp
      subst hmant hexp
      refine ⟨hm, ?_, by omega⟩
      rw [gridExponent_eq, hlog]
      omega

theorem ofBitVec_toBitVec (s : Sign) : Sign.ofBitVec s.toBitVec = s := by
  cases s <;> rfl

/-- **Unpacking finds the canonical parts that were packed.** -/
theorem unpack_pack_finite {m : Nat} {e : Int} (s : Sign) (h : IsCanonical m e) :
    (Float.Model.pack (.finite s m e h.pos)).unpack = .finite s m e h.pos := by
  obtain ⟨hm, hgrid, hsmall⟩ := h
  rw [gridExponent_eq] at hgrid
  have hfits : ¬ 2048 ≤ (e + 1023 + 52).toNat + 1 := by omega
  have hlt : m < 2 ^ 53 := by
    rw [← Nat.log2_lt hm.ne']
    omega
  rw [unpack_pack, pack_finite, if_neg hfits, unpack_eq]
  by_cases hlog : m.log2 + 1 = 53
  · have hge : 2 ^ 52 ≤ m := by
      have := Nat.log2_self_le hm.ne'
      rwa [show m.log2 = 52 by omega] at this
    have hones : BitVec.ofNat 11 (e + 1023 + 52).toNat ≠ -1#11 := by
      intro h
      have h : (e + 1023 + 52).toNat % 2 ^ 11 = 2047 := congrArg BitVec.toNat h
      omega
    have hzero : BitVec.ofNat 11 (e + 1023 + 52).toNat ≠ 0#11 := by
      intro h
      have h : (e + 1023 + 52).toNat % 2 ^ 11 = 0 := congrArg BitVec.toNat h
      omega
    have hmantissa : (1#1 ++ BitVec.ofNat 52 m).toNat = m := by
      rw [toNat_leading_append, BitVec.toNat_ofNat]
      omega
    have hexponent : ((BitVec.ofNat 11 (e + 1023 + 52).toNat).toNat : Int) - (1023 + 52) = e := by
      rw [BitVec.toNat_ofNat]
      omega
    simp only [if_pos hlog, unpackExponent_packComponents, unpackMantissa_packComponents,
      unpackSign_packComponents, if_neg hones, if_neg hzero, ofBitVec_toBitVec, hmantissa,
      hexponent]
  · have hlt : m < 2 ^ 52 := by
      rw [← Nat.log2_lt hm.ne']
      omega
    have hones : 0#11 ≠ -1#11 := by decide
    have hmantissa : (BitVec.ofNat 52 m).toNat = m := by
      rw [BitVec.toNat_ofNat]
      omega
    have hzero : BitVec.ofNat 52 m ≠ 0#52 := fun h => by
      rw [h] at hmantissa
      exact hm.ne hmantissa
    have hexponent : ((0#11).toNat : Int) - (1023 + 52) + 1 = e := by
      have hleast : ((0#11).toNat : Int) - (1023 + 52) + 1 = -1074 := rfl
      omega
    simp only [if_neg hlog, unpackExponent_packComponents, unpackMantissa_packComponents,
      unpackSign_packComponents, if_neg hones, dif_neg hzero, ofBitVec_toBitVec, hmantissa,
      hexponent]
    rfl

end RealRoots
