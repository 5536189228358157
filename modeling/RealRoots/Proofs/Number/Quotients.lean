import RealRoots.Proofs.Number.Arithmetic

/-!
# Quotients

A quotient is rounded once, from its first 53 bits and what is known of the rest.

**Theorem (`div_le_self`).** A double that is not negative gets no larger when it is divided by a
double that is at least one. So the quotient is finite if the dividend is.
-/

namespace RealRoots

open Float.Model Float.Model.UnpackedFloat

/-! ## The bits of a quotient -/

/-- The exponent at which a quotient is computed. -/
abbrev quotientExponent (m : Nat) (e : Int) (n : Nat) (f : Int) : Int :=
  min (e - f) (Format.binary64.targetExponent (totalExponent m e - totalExponent n f))

theorem quotientExponent_eq (m : Nat) (e : Int) (n : Nat) (f : Int) :
    quotientExponent m e n f =
      min (e - f) (max (m.log2 + 1 + e - (n.log2 + 1 + f) - 53) (-1074)) :=
  rfl

theorem divCore_eq (m : Nat) (e : Int) (n : Nat) (f : Int) :
    divCore Format.binary64 m e n f =
      (m * 2 ^ (e - f - quotientExponent m e n f).toNat / n, quotientExponent m e n f,
        accuracyOfFraction (m * 2 ^ (e - f - quotientExponent m e n f).toNat % n) n) := by
  rw [← Nat.shiftLeft_eq]
  rfl

/-- What is cut from a quotient is less than one place. -/
theorem quarters_quotient_le {d n c : Nat} (hn : 0 < n) (h : d ≤ c * n) :
    quarters (.ofMantissaAndAccuracy (d / n) (accuracyOfFraction (d % n) n)) ≤
      quarters (.ofMantissaAndAccuracy c .exact) := by
  have hquarters : quarters (.ofMantissaAndAccuracy c .exact) = 4 * c := rfl
  have hle : d / n ≤ c := Nat.div_le_of_le_mul (Nat.mul_comm .. ▸ h)
  rw [hquarters]
  unfold accuracyOfFraction
  split
  · simpa [quarters, ExtendedMantissa.ofMantissaAndAccuracy] using hle
  · -- Something is cut, so the quotient is below the bound.
    have hlt : d / n < c := by
      rw [Nat.div_lt_iff_lt_mul hn]
      refine lt_of_le_of_ne h ?_
      rintro rfl
      simp at *
    have hdiv := quarters_div (.ofMantissaAndAccuracy (d / n)
      (.inexact (compare (2 * (d % n)) n)))
    rw [mantissa_ofMantissaAndAccuracy] at hdiv
    omega

/-- A quotient has 53 bits, or the least exponent. -/
theorem fine_quotient {m n : Nat} (hm : m ≠ 0) (hn : n ≠ 0) (e f : Int) :
    quotientExponent m e n f ≤ gridExponent
      (m * 2 ^ (e - f - quotientExponent m e n f).toNat / n) (quotientExponent m e n f) := by
  have hexponent := quotientExponent_eq m e n f
  rw [gridExponent_eq]
  obtain hleast | hlarge := le_or_gt (quotientExponent m e n f) (-1074)
  · omega
  · have hbits : 2 ^ 52 ≤ m * 2 ^ (e - f - quotientExponent m e n f).toNat / n := by
      rw [Nat.le_div_iff_mul_le (by omega)]
      calc 2 ^ 52 * n ≤ 2 ^ 52 * 2 ^ (n.log2 + 1) := Nat.mul_le_mul_left _ Nat.lt_log2_self.le
        _ = 2 ^ (52 + (n.log2 + 1)) := (Nat.pow_add ..).symm
        _ ≤ 2 ^ (m.log2 + (e - f - quotientExponent m e n f).toNat) :=
          Nat.pow_le_pow_right (by decide) (by omega)
        _ = 2 ^ m.log2 * 2 ^ (e - f - quotientExponent m e n f).toNat := Nat.pow_add ..
        _ ≤ m * 2 ^ (e - f - quotientExponent m e n f).toNat :=
          Nat.mul_le_mul_right _ (Nat.log2_self_le hm)
    have := (Nat.le_log2 (by omega)).2 hbits
    omega

/-- A quotient of finite doubles that are not zero has a rank. -/
theorem rank?_div {x y : Float} {s t : Sign} {m n : Nat} {e f : Int} {hm : 0 < m} {hn : 0 < n}
    (hx : x.toModel.unpack = .finite s m e hm) (hy : y.toModel.unpack = .finite t n f hn) :
    rank? (x / y).toModel.unpack = some (signedRank (s / t) (roundedRank
      (m * 2 ^ (e - f - quotientExponent m e n f).toNat / n) (quotientExponent m e n f)
      (accuracyOfFraction (m * 2 ^ (e - f - quotientExponent m e n f).toNat % n) n))) := by
  rw [div_unpack, hx, hy, UnpackedFloat.div, divCore_eq]
  exact rank?_round (fine_quotient hm.ne' hn.ne' e f) _ _

/-! ## Division by at least one -/

/-- Before the division, a dividend has no more places than it has times a divisor of at least
one. -/
theorem shifted_le {m n : Nat} {e f : Int} (hm : IsCanonical m e) (hn : n ≠ 0)
    (h : (1 : ℚ) ≤ n * 2 ^ f) :
    ∃ k : Nat, quotientExponent m e n f = e - k ∧
      m * 2 ^ (e - f - quotientExponent m e n f).toNat ≤ m * 2 ^ k * n := by
  have hexponent := quotientExponent_eq m e n f
  obtain ⟨-, hgrid, -⟩ := hm
  rw [gridExponent_eq] at hgrid
  obtain ⟨j, rfl | rfl⟩ := Int.eq_nat_or_neg f
  · refine ⟨(e - quotientExponent m e n j).toNat, by omega, ?_⟩
    calc m * 2 ^ (e - j - quotientExponent m e n j).toNat
        ≤ m * 2 ^ (e - quotientExponent m e n j).toNat :=
          Nat.mul_le_mul_left _ (Nat.pow_le_pow_right (by decide) (by omega))
      _ ≤ m * 2 ^ (e - quotientExponent m e n j).toNat * n :=
          Nat.le_mul_of_pos_right _ (Nat.pos_of_ne_zero hn)
  · have hpow : 2 ^ j ≤ n := by
      rw [zpow_neg, zpow_natCast, ← div_eq_mul_inv, one_le_div (by positivity)] at h
      exact_mod_cast h
    have hlog : j ≤ n.log2 := (Nat.le_log2 hn).2 hpow
    have hshift : (e - -j - quotientExponent m e n (-j)).toNat =
        (e - quotientExponent m e n (-j)).toNat + j := by omega
    refine ⟨(e - quotientExponent m e n (-j)).toNat, by omega, ?_⟩
    rw [hshift, Nat.pow_add, ← Nat.mul_assoc]
    exact Nat.mul_le_mul_left _ hpow

theorem rank?_canonical (s : Sign) {m : Nat} {e : Int} (h : IsCanonical m e) :
    rank? (.finite s m e h.pos) = some (signedRank s (roundedRank m e .exact)) := by
  have hrank := rank?_round h.onGrid.ge s .exact
  rwa [round_self s h.pos h.onGrid, unpack_pack_finite s h] at hrank

variable {x y z : Float}

theorem unpack_of_one_le (h : 1 ≤ y) : y.toModel.unpack = .infinity .positive ∨
    ∃ n f hn, y.toModel.unpack = .finite .positive n f hn := by
  rw [le_iff, one_unpack] at h
  cases hy : y.toModel.unpack <;> rw [hy] at h
  case infinity s =>
    cases s with
    | positive => exact .inl rfl
    | negative => cases h
  case finite s n f hn =>
    cases s with
    | positive => exact .inr ⟨n, f, hn, rfl⟩
    | negative => cases h
  all_goals cases h

/-- A zero of either sign is below what is not negative. -/
theorem between_of_zero {s : Sign} (hz : z.toModel.unpack = .zero s) (hx : 0 ≤ x) :
    0 ≤ z ∧ z ≤ x := by
  have hzero : (0 : Float).toModel.unpack = .zero .positive := rfl
  rw [le_iff, le_iff_rank, hzero] at hx
  rw [le_iff, le_iff, le_iff_rank, le_iff_rank, hz]
  exact ⟨⟨0, 0, rfl, rfl, le_rfl⟩, hx⟩

/-- **Division by at least one gives no more than there was.** -/
theorem div_le_self (hx : x.isFinite) (hpos : 0 ≤ x) (hy : 1 ≤ y) : 0 ≤ x / y ∧ x / y ≤ x := by
  obtain ⟨s, hx'⟩ | ⟨s, m, e, hm, hx'⟩ := isFinite_iff.1 hx <;>
    obtain hy' | ⟨n, f, hn, hy'⟩ := unpack_of_one_le hy
  case inr.inr =>
    obtain rfl : s = .positive := by
      rw [le_iff, hx'] at hpos
      cases s with
      | positive => rfl
      | negative => cases hpos
    have hcanonical : IsCanonical m e := isCanonical_of_unpack hx'
    have hone : (1 : ℚ) ≤ n * 2 ^ f := by
      have hfinite : y.isFinite := isFinite_iff.2 (.inr ⟨_, _, _, _, hy'⟩)
      have hrat := (le_iff_rat_le (by decide) hfinite).1 hy
      rwa [rat_one, rat_of_finite hy'] at hrat
    obtain ⟨k, hk, hshift⟩ := shifted_le hcanonical hn.ne' hone
    have hrank := rank?_div hx' hy'
    rw [le_iff, le_iff, le_iff_rank, le_iff_rank, hx']
    refine ⟨⟨0, _, rfl, hrank, placeRank_nonneg ..⟩, _, _, hrank, rank?_canonical _ hcanonical, ?_⟩
    change roundedRank _ _ _ ≤ roundedRank _ _ _
    rw [← roundedRank_mul hcanonical.onGrid.ge k, ← hk]
    exact roundedRank_le (fine_quotient hm.ne' hn.ne' e f) (quarters_quotient_le hn hshift)
  all_goals
    have hquotient := div_unpack x y
    rw [hx', hy'] at hquotient
    exact between_of_zero (hquotient.trans (unpack_pack_zero _)) hpos

/-- A quotient by at least one is finite. -/
theorem div_isFinite (hx : x.isFinite) (hpos : 0 ≤ x) (hy : 1 ≤ y) : (x / y).isFinite := by
  obtain ⟨hle, hge⟩ := div_le_self hx hpos hy
  exact isFinite_of_between (by decide) hx hle hge

end RealRoots
