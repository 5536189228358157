import Mathlib
import RealRoots.Number.Binary

/-!
# Facts about doubles

An operation on doubles unpacks its arguments, works on what it finds and packs the result. A double
is what packing its own parts gives (`pack_unpack`), so a fact about the parts is one about doubles.

* `abs_isFinite`, `neg_isFinite`: a sign does not decide whether a double is finite.
* `isFinite_of_abs_lt`, `le_of_not_lt`: what a comparison says of a double that may be no number.
* `sub_div_of_not_finite`: a step by a quotient with an infinite divisor goes nowhere.
-/

namespace RealRoots

open Float.Model Float.Model.UnpackedFloat

/-! ## Packing and unpacking -/

theorem toBitVec_ofBitVec (v : BitVec 1) : (Sign.ofBitVec v).toBitVec = v := by
  revert v
  decide

/-- The bits are those of sign, exponent and mantissa. -/
theorem packComponents_parts (b : BitVec Format.binary64.numBits) :
    packComponents Format.binary64 (Sign.ofBitVec (unpackSign b)) (unpackExponent b)
      (unpackMantissa b) = b := by
  rw [packComponents, toBitVec_ofBitVec]
  apply BitVec.eq_of_getLsbD_eq
  intro i hi
  simp only [unpackSign, unpackExponent, unpackMantissa, BitVec.getLsbD_append,
    BitVec.getLsbD_cast, BitVec.getLsbD_extractLsb]
  have : i < 64 := hi
  grind

/-- The leading one of a normal mantissa. -/
theorem toNat_leading_append (v : BitVec 52) : (1#1 ++ v).toNat = 2 ^ 52 + v.toNat := by
  rw [BitVec.toNat_append, ← Nat.shiftLeft_add_eq_or_of_lt v.isLt]
  rfl

theorem pack_finite (s : Sign) (m : Nat) (e : Int) (hm : 0 < m) :
    UnpackedFloat.pack Format.binary64 (.finite s m e hm) =
      if 2048 ≤ (e + 1023 + 52).toNat + 1 then packedInfinity Format.binary64 s
      else if m.log2 + 1 = 53 then
        packComponents Format.binary64 s (BitVec.ofNat 11 (e + 1023 + 52).toNat) (BitVec.ofNat 52 m)
      else packComponents Format.binary64 s 0#11 (BitVec.ofNat 52 m) :=
  rfl

theorem unpack_eq (b : BitVec Format.binary64.numBits) :
    UnpackedFloat.unpack Format.binary64 b =
      if unpackExponent b = -1#11 then
        if unpackMantissa b = 0#52 then .infinity (Sign.ofBitVec (unpackSign b)) else .notANumber
      else if unpackExponent b = 0#11 then
        if h : unpackMantissa b = 0#52 then .zero (Sign.ofBitVec (unpackSign b))
        else .finite (Sign.ofBitVec (unpackSign b)) (unpackMantissa b).toNat
          (((unpackExponent b).toNat : Int) - (1023 + 52) + 1)
          (by simpa [BitVec.toNat_pos, BitVec.pos_iff_ne_zero])
      else .finite (Sign.ofBitVec (unpackSign b)) (1#1 ++ unpackMantissa b).toNat
        (((unpackExponent b).toNat : Int) - (1023 + 52)) (by rw [toNat_leading_append]; omega) :=
  rfl

/-- **Packing the parts of a double gives it back.** -/
theorem pack_unpack_bits {b : BitVec Format.binary64.numBits} (h : Format.binary64.Valid b) :
    UnpackedFloat.pack Format.binary64 (UnpackedFloat.unpack Format.binary64 b) = b := by
  have hbits := packComponents_parts b
  have hmantissa : (unpackMantissa b).toNat < 2 ^ 52 := (unpackMantissa b).isLt
  have hexponent : (unpackExponent b).toNat < 2 ^ 11 := (unpackExponent b).isLt
  rw [unpack_eq]
  by_cases hones : unpackExponent b = -1#11
  · rw [if_pos hones]
    by_cases hzero : unpackMantissa b = 0#52
    · rw [if_pos hzero]
      rwa [hones, hzero] at hbits
    · rw [if_neg hzero]
      exact (h.eq_packedNaN hones hzero).symm
  · rw [if_neg hones]
    by_cases hsmall : unpackExponent b = 0#11
    · rw [if_pos hsmall]
      by_cases hzero : unpackMantissa b = 0#52
      · rw [dif_pos hzero]
        rwa [hsmall, hzero] at hbits
      · -- A subnormal mantissa is too short for its leading one.
        have hlog : (unpackMantissa b).toNat.log2 < 52 := by
          rw [Nat.log2_lt fun h0 => hzero (BitVec.eq_of_toNat_eq h0)]
          exact hmantissa
        rw [dif_neg hzero, pack_finite, if_neg (by rw [hsmall]; decide), if_neg (by omega),
          BitVec.ofNat_toNat, BitVec.setWidth_eq]
        rwa [hsmall] at hbits
    · have hlog : (1#1 ++ unpackMantissa b).toNat.log2 = 52 := by
        rw [toNat_leading_append, Nat.log2_eq_iff] <;> omega
      have hfits : (unpackExponent b).toNat ≠ 2047 := fun h => hones (BitVec.eq_of_toNat_eq h)
      have hbiased : ((unpackExponent b).toNat - (1023 + 52) + 1023 + 52 : Int).toNat =
          (unpackExponent b).toNat := by omega
      have hcut : BitVec.ofNat 52 (2 ^ 52 + (unpackMantissa b).toNat) = unpackMantissa b := by
        apply BitVec.eq_of_toNat_eq
        rw [BitVec.toNat_ofNat]
        omega
      rw [if_neg hsmall, pack_finite, hbiased, if_neg (by omega), if_pos (by omega),
        BitVec.ofNat_toNat, BitVec.setWidth_eq, toNat_leading_append, hcut]
      exact hbits

theorem pack_unpack (x : Float.Model) : Float.Model.pack x.unpack = x := by
  obtain ⟨bits, valid⟩ := x
  simp only [Float.Model.pack, Float.Model.unpack, pack_unpack_bits valid]

/-- The parts decide a double. -/
theorem eq_of_unpack_eq {x y : Float} (h : x.toModel.unpack = y.toModel.unpack) : x = y := by
  obtain ⟨x⟩ := x
  obtain ⟨y⟩ := y
  rw [← pack_unpack x, ← pack_unpack y, h]

theorem unpack_pack (u : UnpackedFloat) : (Float.Model.pack u).unpack =
    UnpackedFloat.unpack Format.binary64 (UnpackedFloat.pack Format.binary64 u) :=
  rfl

theorem unpack_pack_nan : (Float.Model.pack .notANumber).unpack = .notANumber := by
  rfl

theorem unpack_pack_infinity (s : Sign) :
    (Float.Model.pack (.infinity s)).unpack = .infinity s := by
  cases s <;> rfl

theorem unpack_pack_zero (s : Sign) : (Float.Model.pack (.zero s)).unpack = .zero s := by
  cases s <;> rfl

/-! ## Finite doubles -/

theorem isFinite_unpack (b : BitVec Format.binary64.numBits) :
    (UnpackedFloat.unpack Format.binary64 b).isFinite = !(unpackExponent b == -1#11) := by
  rw [unpack_eq]
  by_cases hones : unpackExponent b = -1#11
  · rw [if_pos hones, hones]
    split <;> rfl
  · rw [if_neg hones, beq_false_of_ne hones]
    split
    · split <;> rfl
    · rfl

/-- A packed double is finite if its exponent fits, whatever its sign. -/
theorem isFinite_pack_finite (s : Sign) (m : Nat) (e : Int) (hm : 0 < m) :
    (Float.Model.pack (.finite s m e hm)).unpack.isFinite =
      !decide (2048 ≤ (e + 1023 + 52).toNat + 1) := by
  rw [unpack_pack, isFinite_unpack, pack_finite]
  by_cases hlarge : 2048 ≤ (e + 1023 + 52).toNat + 1
  · rw [if_pos hlarge, packedInfinity, unpackExponent_packComponents, decide_eq_true hlarge]
    rfl
  · rw [if_neg hlarge, decide_eq_false hlarge]
    split <;> rw [unpackExponent_packComponents]
    · have hne : BitVec.ofNat 11 (e + 1023 + 52).toNat ≠ -1#11 := by
        intro h
        have h : (e + 1023 + 52).toNat % 2 ^ 11 = 2047 := congrArg BitVec.toNat h
        omega
      rw [beq_false_of_ne hne]
    · rfl

theorem isFinite_eq (x : Float) :
    x.isFinite = (Float.Model.pack x.toModel.unpack).unpack.isFinite := by
  rw [pack_unpack]
  rfl

/-- **A sign does not decide whether a double is finite.** -/
theorem abs_isFinite (x : Float) : x.abs.isFinite = x.isFinite := by
  rw [isFinite_eq x]
  change (Float.Model.pack x.toModel.unpack.abs).unpack.isFinite = _
  cases x.toModel.unpack with
  | notANumber => rfl
  | infinity s => rw [UnpackedFloat.abs, unpack_pack_infinity, unpack_pack_infinity]; rfl
  | zero s => rw [UnpackedFloat.abs, unpack_pack_zero, unpack_pack_zero]; rfl
  | finite s m e hm => rw [UnpackedFloat.abs, isFinite_pack_finite, isFinite_pack_finite]

theorem neg_isFinite (x : Float) : (-x).isFinite = x.isFinite := by
  rw [isFinite_eq x]
  change (Float.Model.pack x.toModel.unpack.neg).unpack.isFinite = _
  cases x.toModel.unpack with
  | notANumber => rfl
  | infinity s => rw [UnpackedFloat.neg, unpack_pack_infinity, unpack_pack_infinity]; rfl
  | zero s => rw [UnpackedFloat.neg, unpack_pack_zero, unpack_pack_zero]; rfl
  | finite s m e hm => rw [UnpackedFloat.neg, isFinite_pack_finite, isFinite_pack_finite]

/-- A double that is not finite is an infinity or no number. -/
theorem not_isFinite_iff {x : Float} : ¬ x.isFinite ↔
    x.toModel.unpack = .notANumber ∨ ∃ s, x.toModel.unpack = .infinity s := by
  change ¬ x.toModel.unpack.isFinite ↔ _
  cases x.toModel.unpack <;> simp [UnpackedFloat.isFinite]

theorem isFinite_iff {x : Float} : x.isFinite ↔
    (∃ s, x.toModel.unpack = .zero s) ∨ ∃ s m e hm, x.toModel.unpack = .finite s m e hm := by
  change x.toModel.unpack.isFinite ↔ _
  cases x.toModel.unpack with
  | finite s m e hm => exact iff_of_true rfl (.inr ⟨s, m, e, hm, rfl⟩)
  | _ => simp [UnpackedFloat.isFinite]

/-! ## Comparisons -/

theorem lt_iff {x y : Float} : x < y ↔ x.toModel.unpack.lt y.toModel.unpack = true :=
  decide_eq_true_iff

theorem le_iff {x y : Float} : x ≤ y ↔ x.toModel.unpack.le y.toModel.unpack = true :=
  decide_eq_true_iff

/-- **Only a finite double is below another in size.** -/
theorem isFinite_of_abs_lt {x t : Float} (h : x.abs < t) : x.isFinite := by
  have hlt : (Float.Model.pack x.toModel.unpack.abs).unpack.lt t.toModel.unpack = true := lt_iff.1 h
  refine Decidable.of_not_not fun hx => ?_
  obtain hx | ⟨s, hx⟩ := not_isFinite_iff.1 hx <;> rw [hx, UnpackedFloat.abs] at hlt
  · rw [unpack_pack_nan] at hlt
    cases hlt
  · rw [unpack_pack_infinity] at hlt
    cases ht : t.toModel.unpack <;> rw [ht] at hlt
    case infinity s => cases s <;> cases hlt
    all_goals cases hlt

theorem compare_swap (u v : UnpackedFloat) :
    (u.compare v).map Ordering.swap = v.compare u := by
  cases u with
  | notANumber => cases v <;> rfl
  | infinity s =>
    cases s <;> cases v with
    | infinity t => cases t <;> rfl
    | _ => rfl
  | zero s =>
    cases v with
    | infinity t | finite t => cases t <;> rfl
    | _ => rfl
  | finite s m e hm =>
    cases s <;> cases v with
    | infinity t => cases t <;> rfl
    | finite t =>
      cases t <;> simp [UnpackedFloat.compare, Ordering.swap_then, Int.compare_swap,
        Nat.compare_swap]
    | _ => rfl

/-- **Finite doubles are ordered.** -/
theorem le_of_not_lt {x y : Float} (hx : x.isFinite) (hy : y.isFinite) (h : ¬ x < y) : y ≤ x := by
  obtain ⟨order, horder⟩ : ∃ order, x.toModel.unpack.compare y.toModel.unpack = some order := by
    obtain ⟨s, hx⟩ | ⟨s, m, e, hm, hx⟩ := isFinite_iff.1 hx <;>
      obtain ⟨t, hy⟩ | ⟨t, n, e', hn, hy⟩ := isFinite_iff.1 hy <;> rw [hx, hy] <;> cases s <;>
      cases t <;> exact ⟨_, rfl⟩
  rw [lt_iff, UnpackedFloat.lt, horder] at h
  rw [le_iff, UnpackedFloat.le, ← compare_swap, horder]
  cases order with
  | lt => exact absurd rfl h
  | eq | gt => rfl

/-! ## Quotients by an infinity -/

theorem beq_iff {x y : Float} : x == y ↔ x.toModel.unpack.beq y.toModel.unpack = true :=
  Iff.rfl

theorem beq_self {x : Float} (h : x.isFinite) : x == x := by
  rw [beq_iff]
  obtain ⟨s, hx⟩ | ⟨s, m, e, hm, hx⟩ := isFinite_iff.1 h <;> rw [hx, UnpackedFloat.beq]
  · rfl
  · cases s <;> simp [UnpackedFloat.compare]

theorem abs_of_zero {x : Float} {s : Sign} (h : x.toModel.unpack = .zero s) : x.abs = 0 := by
  apply eq_of_unpack_eq
  change (Float.Model.pack x.toModel.unpack.abs).unpack = _
  rw [h]
  exact unpack_pack_zero .positive

theorem sub_unpack (x y : Float) : (x - y).toModel.unpack = (Float.Model.pack
    (UnpackedFloat.sub Format.binary64 x.toModel.unpack y.toModel.unpack)).unpack :=
  rfl

theorem div_unpack (x y : Float) : (x / y).toModel.unpack = (Float.Model.pack
    (UnpackedFloat.div Format.binary64 x.toModel.unpack y.toModel.unpack)).unpack :=
  rfl

theorem sub_nan (u : UnpackedFloat) :
    UnpackedFloat.sub Format.binary64 u .notANumber = .notANumber := by
  cases u <;> rfl

theorem div_nan (u : UnpackedFloat) :
    UnpackedFloat.div Format.binary64 u .notANumber = .notANumber := by
  cases u <;> rfl

theorem sub_zeros (s t : Sign) : ∃ r, UnpackedFloat.sub Format.binary64 (.zero s) (.zero t) =
    .zero r := by
  cases s <;> cases t <;> exact ⟨_, rfl⟩

theorem sub_self (s : Sign) (m : Nat) (e : Int) (hm : 0 < m) :
    UnpackedFloat.sub Format.binary64 (.finite s m e hm) (.finite s m e hm) = .zero .positive := by
  simp [UnpackedFloat.sub, UnpackedFloat.normalize]

/-- A quotient by a divisor that is not finite is a zero or no number, and no number if the divisor
is none. -/
theorem div_of_not_finite {d : Float} (p : Float) (h : ¬ d.isFinite) :
    (p / d).toModel.unpack = .notANumber ∨ d.isInf ∧ ∃ s, (p / d).toModel.unpack = .zero s := by
  rw [div_unpack]
  obtain hd | ⟨s, hd⟩ := not_isFinite_iff.1 h <;> rw [hd]
  · rw [div_nan]
    exact .inl unpack_pack_nan
  · have hinf : d.isInf := by
      change d.toModel.unpack.isInf = true
      rw [hd]
      rfl
    cases p.toModel.unpack with
    | notANumber | infinity => exact .inl unpack_pack_nan
    | zero t | finite t => exact .inr ⟨hinf, t / s, unpack_pack_zero _⟩

theorem sub_zero_of_finite {x z : Float} {s t : Sign} {m : Nat} {e : Int} {hm : 0 < m}
    (hx : x.toModel.unpack = .finite t m e hm) (hz : z.toModel.unpack = .zero s) : x - z = x := by
  have hstep := sub_unpack x z
  rw [hx, hz] at hstep
  apply eq_of_unpack_eq
  rw [hstep, ← pack_unpack x.toModel, hx]
  rfl

/-- A step of a zero goes nowhere. -/
theorem sub_zero_step {x z : Float} {s : Sign} (hz : z.toModel.unpack = .zero s)
    (h : (x - z).isFinite) : x - z == x ∧ (x - z - x).abs = 0 := by
  have hstep := sub_unpack x z
  cases hx : x.toModel.unpack <;> rw [hx, hz] at hstep
  case notANumber =>
    exact absurd h (not_isFinite_iff.2 (.inl (hstep.trans unpack_pack_nan)))
  case infinity t =>
    exact absurd h (not_isFinite_iff.2 (.inr ⟨t, hstep.trans (unpack_pack_infinity t)⟩))
  case zero t =>
    obtain ⟨r, hr⟩ := sub_zeros t s
    rw [hr, unpack_pack_zero] at hstep
    obtain ⟨q, hq⟩ := sub_zeros r t
    refine ⟨?_, abs_of_zero (s := q) ?_⟩
    · rw [beq_iff, hstep, hx]
      rfl
    · rw [sub_unpack, hstep, hx, hq, unpack_pack_zero]
  case finite t m e hm =>
    rw [sub_zero_of_finite hx hz] at h ⊢
    refine ⟨beq_self h, abs_of_zero (s := .positive) ?_⟩
    rw [sub_unpack, hx, sub_self, unpack_pack_zero]

/-- **A step by a quotient with a divisor that is not finite goes nowhere.** The divisor is an
infinity, and the step has length zero. -/
theorem sub_div_of_not_finite {x p d : Float} (hd : ¬ d.isFinite) (h : (x - p / d).isFinite) :
    d.isInf ∧ x - p / d == x ∧ (x - p / d - x).abs = 0 := by
  obtain hq | ⟨hinf, s, hq⟩ := div_of_not_finite p hd
  · have hnan : (x - p / d).toModel.unpack = .notANumber := by
      rw [sub_unpack, hq, sub_nan, unpack_pack_nan]
    exact absurd h (not_isFinite_iff.2 (.inl hnan))
  · exact ⟨hinf, sub_zero_step hq h⟩

end RealRoots
