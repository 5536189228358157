import RealRoots.Proofs.Number.Doubles

/-!
# The distance of two doubles

**Theorem (`abs_sub_comm`).** `|x - y|` and `|y - x|` are one double, whatever `x` and `y` are. The
two differences are rounded alike but for their sign, and the sign of a result is lost in its size.
-/

namespace RealRoots

open Float.Model Float.Model.UnpackedFloat

/-! ## Sizes and packing -/

theorem abs_unpack_packComponents (s : Sign) (e : BitVec 11) (m : BitVec 52) :
    (UnpackedFloat.unpack Format.binary64 (packComponents Format.binary64 s e m)).abs =
      (UnpackedFloat.unpack Format.binary64
        (packComponents Format.binary64 .positive e m)).abs := by
  rw [unpack_eq, unpack_eq]
  simp only [unpackExponent_packComponents, unpackMantissa_packComponents]
  by_cases hones : e = -1#11
  · rw [if_pos hones, if_pos hones]
    by_cases hzero : m = 0#52
    · rw [if_pos hzero, if_pos hzero, UnpackedFloat.abs, UnpackedFloat.abs]
    · rw [if_neg hzero, if_neg hzero]
  · rw [if_neg hones, if_neg hones]
    by_cases hsmall : e = 0#11
    · rw [if_pos hsmall, if_pos hsmall]
      by_cases hzero : m = 0#52
      · rw [dif_pos hzero, dif_pos hzero, UnpackedFloat.abs, UnpackedFloat.abs]
      · rw [dif_neg hzero, dif_neg hzero, UnpackedFloat.abs, UnpackedFloat.abs]
    · rw [if_neg hsmall, if_neg hsmall, UnpackedFloat.abs, UnpackedFloat.abs]

/-- What is packed has the size that it is given, rounded to fit. -/
theorem abs_unpack_pack (u : UnpackedFloat) :
    (Float.Model.pack u).unpack.abs = (Float.Model.pack u.abs).unpack.abs := by
  cases u with
  | notANumber => rfl
  | infinity s => rw [UnpackedFloat.abs, unpack_pack_infinity, unpack_pack_infinity]; rfl
  | zero s => rw [UnpackedFloat.abs, unpack_pack_zero, unpack_pack_zero]; rfl
  | finite s m e hm =>
    rw [show (UnpackedFloat.finite s m e hm).abs = .finite .positive m e hm from rfl, unpack_pack,
      unpack_pack, pack_finite, pack_finite]
    by_cases hlarge : 2048 ≤ (e + 1023 + 52).toNat + 1
    · rw [if_pos hlarge, if_pos hlarge]
      exact abs_unpack_packComponents s _ _
    · rw [if_neg hlarge, if_neg hlarge]
      by_cases hnormal : m.log2 + 1 = 53
      · rw [if_pos hnormal, if_pos hnormal]
        exact abs_unpack_packComponents s _ _
      · rw [if_neg hnormal, if_neg hnormal]
        exact abs_unpack_packComponents s _ _

theorem abs_toModel (x : Float) :
    x.abs.toModel.unpack = (Float.Model.pack x.toModel.unpack.abs).unpack :=
  rfl

/-! ## Differences -/

theorem abs_roundWithAccuracy (s t : Sign) (m : Nat) (e : Int) (a : Accuracy) :
    (roundWithAccuracy Format.binary64 s m e a).abs =
      (roundWithAccuracy Format.binary64 t m e a).abs := by
  simp only [roundWithAccuracy]
  split <;> rfl

theorem abs_normalize_neg (m e : Int) :
    (UnpackedFloat.normalize Format.binary64 (-m) e .positive).abs =
      (UnpackedFloat.normalize Format.binary64 m e .positive).abs := by
  obtain h | rfl | h := Int.lt_trichotomy m 0
  · have hpos : compare (-m) 0 = .gt := Int.compare_eq_gt.2 (by omega)
    have hneg : compare m 0 = .lt := Int.compare_eq_lt.2 h
    simp only [UnpackedFloat.normalize, hpos, hneg]
    exact abs_roundWithAccuracy ..
  · rfl
  · have hneg : compare (-m) 0 = .lt := Int.compare_eq_lt.2 (by omega)
    have hpos : compare m 0 = .gt := Int.compare_eq_gt.2 h
    simp only [UnpackedFloat.normalize, hpos, hneg, Int.neg_neg]
    exact abs_roundWithAccuracy ..

theorem abs_sub_unpacked (u v : UnpackedFloat) :
    (UnpackedFloat.sub Format.binary64 u v).abs = (UnpackedFloat.sub Format.binary64 v u).abs := by
  cases u with
  | notANumber => cases v <;> rfl
  | infinity s =>
    cases v with
    | infinity t => cases s <;> cases t <;> rfl
    | _ => rfl
  | zero s =>
    cases v with
    | zero t => cases s <;> cases t <;> rfl
    | _ => rfl
  | finite s m e hm =>
    cases v with
    | finite t n e' hn =>
      simp only [UnpackedFloat.sub, Int.min_comm e' e]
      rw [← abs_normalize_neg, Int.neg_sub]
    | _ => rfl

/-- **The distance of two doubles does not depend on their order.** -/
theorem abs_sub_comm (x y : Float) : (x - y).abs = (y - x).abs := by
  apply eq_of_unpack_eq
  rw [abs_toModel, abs_toModel, sub_unpack, sub_unpack, abs_unpack_pack, abs_sub_unpacked,
    ← abs_unpack_pack]

end RealRoots
