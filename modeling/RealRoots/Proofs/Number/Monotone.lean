import RealRoots.Proofs.Number.Order
import RealRoots.Proofs.Number.Rounding

/-!
# Rounding keeps the order

**Theorem (`roundedRank_le`).** Of two numbers with one exponent, the smaller is not rounded to a
larger double. A number that is too large for a double is rounded to an infinity, so this holds
there too.

Rounding shifts a mantissa to the grid of its size and goes to the nearest place there. What is
shifted out is kept to a quarter of a place (`quarters`), and both a shift and the last step keep
the order of quarters. Numbers of different sizes have different grids; then the power of two where
the wider grid begins lies between what the two are rounded to (`gridMantissa_ge`).
-/

namespace RealRoots

open Float.Model Float.Model.UnpackedFloat

/-! ## Shifts -/

/-- The place of a shifted mantissa in quarters, of which the last two bits are kept. -/
def quarters (em : ExtendedMantissa) : Nat :=
  4 * em.mantissa + 2 * em.roundBit.toNat + em.stickyBit.toNat

theorem quarters_shiftRightOne (em : ExtendedMantissa) :
    quarters em.shiftRightOne = 2 * (quarters em / 4) + min 1 (quarters em % 4) := by
  obtain ⟨m, round, sticky⟩ := em
  obtain h | h := Nat.mod_two_eq_zero_or_one m <;> cases round <;> cases sticky <;>
    simp [quarters, ExtendedMantissa.shiftRightOne, h] <;> omega

theorem quarters_shiftRight_le {a b : ExtendedMantissa} (h : quarters a ≤ quarters b) (k : Nat) :
    quarters (a >>> k) ≤ quarters (b >>> k) := by
  induction k with
  | zero => exact h
  | succ k ih =>
    rw [shiftRight_succ, shiftRight_succ, quarters_shiftRightOne, quarters_shiftRightOne]
    omega

theorem quarters_div (em : ExtendedMantissa) : quarters em / 4 = em.mantissa := by
  obtain ⟨m, round, sticky⟩ := em
  cases round <;> cases sticky <;> simp [quarters] <;> omega

theorem roundedMantissa_le {a b : ExtendedMantissa} (h : quarters a ≤ quarters b) :
    a.roundedMantissa ≤ b.roundedMantissa := by
  obtain ⟨m, round, sticky⟩ := a
  obtain ⟨n, round', sticky'⟩ := b
  cases round <;> cases sticky <;> cases round' <;> cases sticky' <;>
    simp [quarters] at h <;>
    simp [ExtendedMantissa.roundedMantissa, ExtendedMantissa.accuracy,
      Accuracy.roundToNearestEven] <;> omega

theorem mantissa_shiftRight (em : ExtendedMantissa) (k : Nat) :
    (em >>> k).mantissa = em.mantissa / 2 ^ k := by
  induction k with
  | zero => exact (Nat.div_one _).symm
  | succ k ih =>
    rw [shiftRight_succ, Nat.pow_succ, ← Nat.div_div_eq_div_mul, ← ih]
    rfl

theorem le_roundedMantissa (em : ExtendedMantissa) : em.mantissa ≤ em.roundedMantissa := by
  obtain ⟨m, round, sticky⟩ := em
  cases round <;> cases sticky <;>
    simp [ExtendedMantissa.roundedMantissa, ExtendedMantissa.accuracy,
      Accuracy.roundToNearestEven]

theorem roundedMantissa_le_succ (em : ExtendedMantissa) :
    em.roundedMantissa ≤ em.mantissa + 1 := by
  obtain ⟨m, round, sticky⟩ := em
  cases round <;> cases sticky <;>
    simp [ExtendedMantissa.roundedMantissa, ExtendedMantissa.accuracy,
      Accuracy.roundToNearestEven]
  omega

/-! ## The nearest place on the grid -/

/-- The mantissa that is shifted to the grid of its size and rounded there. -/
def gridMantissa (m : Nat) (e : Int) (a : Accuracy) : Nat :=
  (ExtendedMantissa.ofMantissaAndAccuracy m a >>> (gridExponent m e - e).toNat).roundedMantissa

theorem mantissa_ofMantissaAndAccuracy (m : Nat) (a : Accuracy) :
    (ExtendedMantissa.ofMantissaAndAccuracy m a).mantissa = m := by
  cases a with
  | exact => rfl
  | inexact order => cases order <;> rfl

theorem gridMantissa_le (m : Nat) (e : Int) (a : Accuracy) : gridMantissa m e a ≤ 2 ^ 53 := by
  refine (roundedMantissa_le_succ _).trans ?_
  rw [mantissa_shiftRight, mantissa_ofMantissaAndAccuracy]
  have hshift : m.log2 + 1 ≤ 53 + (gridExponent m e - e).toNat := by
    rw [gridExponent_eq]
    omega
  have hlt : m < 2 ^ 53 * 2 ^ (gridExponent m e - e).toNat := by
    rw [← Nat.pow_add]
    exact Nat.lt_log2_self.trans_le (Nat.pow_le_pow_right (by decide) hshift)
  have := Nat.div_lt_of_lt_mul (Nat.mul_comm .. ▸ hlt)
  omega

/-- A grid wider than the narrowest begins at `2 ^ 52`. -/
theorem gridMantissa_ge {m : Nat} {e : Int} (he : e ≤ gridExponent m e) (a : Accuracy)
    (hwide : gridExponent m e ≠ -1074) : 2 ^ 52 ≤ gridMantissa m e a := by
  have hm : m ≠ 0 := by
    rintro rfl
    rw [gridExponent_eq, Nat.log2_zero] at he hwide
    omega
  refine le_trans ?_ (le_roundedMantissa _)
  rw [mantissa_shiftRight, mantissa_ofMantissaAndAccuracy, Nat.le_div_iff_mul_le (by positivity),
    ← Nat.pow_add]
  have hlog : 52 + (gridExponent m e - e).toNat = m.log2 := by
    rw [gridExponent_eq] at he hwide ⊢
    omega
  rw [hlog]
  exact Nat.log2_self_le hm

/-- A place on a grid. The one behind the last place is the first of the next grid. -/
def placed (s : Sign) (r : Nat) (t : Int) : UnpackedFloat :=
  if h : r = 0 then .zero s
  else if r < 2 ^ 53 then .finite s r t (Nat.pos_of_ne_zero h)
  else .finite s (2 ^ 52) (t + 1) (by decide)

theorem shiftToGrid_of_lt {r : Nat} {t : Int} (hr : r < 2 ^ 53) (ht : -1074 ≤ t) :
    shiftToTargetExponent Format.binary64 r t .exact = (bare r, t) := by
  have hlog : r.log2 ≤ 52 := by
    by_cases h : r = 0
    · subst h
      decide
    · have := (Nat.log2_lt h).2 hr
      omega
  have hshift : (gridExponent r t - t).toNat = 0 := by
    rw [gridExponent_eq]
    omega
  rw [shiftToGrid_eq, hshift]
  exact Prod.ext rfl (Int.add_zero t)

theorem shiftToGrid_carry {t : Int} (ht : -1074 ≤ t) :
    shiftToTargetExponent Format.binary64 (2 ^ 53) t .exact = (bare (2 ^ 52), t + 1) := by
  have hshift : (gridExponent (2 ^ 53) t - t).toNat = 1 := by
    rw [gridExponent_eq, Nat.log2_two_pow]
    omega
  rw [shiftToGrid_eq, hshift]
  rfl

/-- **Rounding puts a number at a place of its grid.** -/
theorem roundWithAccuracy_eq (s : Sign) (m : Nat) (e : Int) (a : Accuracy) :
    roundWithAccuracy Format.binary64 s m e a =
      placed s (gridMantissa m e a) (e + (gridExponent m e - e).toNat) := by
  have hgrid : -1074 ≤ e + (gridExponent m e - e).toNat := by
    rw [gridExponent_eq]
    omega
  have hfirst : shiftToTargetExponent Format.binary64 m e a =
      (ExtendedMantissa.ofMantissaAndAccuracy m a >>> (gridExponent m e - e).toNat,
        e + (gridExponent m e - e).toNat) := rfl
  have hrounded : (ExtendedMantissa.ofMantissaAndAccuracy m a >>>
      (gridExponent m e - e).toNat).roundedMantissa = gridMantissa m e a := rfl
  have hr := gridMantissa_le m e a
  rw [roundWithAccuracy, hfirst, placed]
  by_cases hlast : gridMantissa m e a < 2 ^ 53
  · simp only [hrounded, shiftToGrid_of_lt hlast hgrid, if_pos hlast]
  · have hcarry : gridMantissa m e a = 2 ^ 53 := by omega
    simp only [hrounded, hcarry, shiftToGrid_carry hgrid]
    rfl

/-! ## Ranks of places -/

/-- The rank on the side of zero that a sign says. -/
def signedRank (s : Sign) (a : ℤ ×ₗ ℤ ×ₗ ℤ) : ℤ ×ₗ ℤ ×ₗ ℤ :=
  match s with
  | .positive => a
  | .negative => -a

/-- The rank of a place above zero, after it has been packed. -/
def placeRank (r : Nat) (t : Int) : ℤ ×ₗ ℤ ×ₗ ℤ :=
  if r = 0 then 0
  else if r < 2 ^ 53 then
    if t ≤ 971 then toLex (1, toLex (t, (r : ℤ))) else toLex (2, toLex (0, 0))
  else if t + 1 ≤ 971 then toLex (1, toLex (t + 1, 2 ^ 52)) else toLex (2, toLex (0, 0))

theorem placeRank_nonneg (r : Nat) (t : Int) : 0 ≤ placeRank r t := by
  change toLex (0, toLex (0, 0)) ≤ _
  unfold placeRank
  split_ifs
  · exact le_rfl
  all_goals simp [Prod.Lex.toLex_le_toLex]

/-- Places keep their order, on one grid and between grids. -/
theorem placeRank_le {r r' : Nat} {t t' : Int} (hr : r ≤ 2 ^ 53) (hr' : r' ≤ 2 ^ 53)
    (h : t = t' ∧ r ≤ r' ∨ t < t' ∧ 2 ^ 52 ≤ r') : placeRank r t ≤ placeRank r' t' := by
  by_cases hzero : r = 0
  · rw [placeRank, if_pos hzero]
    exact placeRank_nonneg r' t'
  · have hzero' : r' ≠ 0 := by omega
    simp only [placeRank, if_neg hzero, if_neg hzero']
    split_ifs <;> norm_num [Prod.Lex.toLex_le_toLex] <;> omega

/-- What is on its grid is packed as it is, unless it is too large. -/
theorem rank?_pack_finite (s : Sign) {m : Nat} {e : Int} (hm : 0 < m) (h : gridExponent m e = e) :
    rank? (Float.Model.pack (.finite s m e hm)).unpack = some (signedRank s
      (if e ≤ 971 then toLex (1, toLex (e, (m : ℤ))) else toLex (2, toLex (0, 0)))) := by
  by_cases hsmall : e ≤ 971
  · rw [unpack_pack_finite s ⟨hm, h, hsmall⟩, if_pos hsmall]
    cases s <;> rfl
  · have hpack : Float.Model.pack (.finite s m e hm) = Float.Model.pack (.infinity s) := by
      have hlarge : 2048 ≤ (e + 1023 + 52).toNat + 1 := by omega
      have hbits := pack_finite s m e hm
      rw [if_pos hlarge] at hbits
      simp only [Float.Model.pack, hbits]
      rfl
    rw [hpack, unpack_pack_infinity, if_neg hsmall]
    cases s <;> rfl

theorem rank?_placed (s : Sign) {r : Nat} {t : Int} (ht : -1074 ≤ t)
    (hfirst : t ≠ -1074 → 2 ^ 52 ≤ r) :
    rank? (Float.Model.pack (placed s r t)).unpack = some (signedRank s (placeRank r t)) := by
  unfold placed placeRank
  by_cases hzero : r = 0
  · rw [dif_pos hzero, if_pos hzero, unpack_pack_zero]
    cases s <;> rfl
  rw [dif_neg hzero, if_neg hzero]
  by_cases hlast : r < 2 ^ 53
  · have hlog : r.log2 ≤ 52 := by
      have := (Nat.log2_lt hzero).2 hlast
      omega
    have hgrid : gridExponent r t = t := by
      rw [gridExponent_eq]
      by_cases hleast : t = -1074
      · omega
      · have := (Nat.le_log2 hzero).2 (hfirst hleast)
        omega
    rw [if_pos hlast, if_pos hlast, rank?_pack_finite _ _ hgrid]
  · have hgrid : gridExponent (2 ^ 52) (t + 1) = t + 1 := by
      rw [gridExponent_eq, Nat.log2_two_pow]
      omega
    rw [if_neg hlast, if_neg hlast, rank?_pack_finite _ _ hgrid]
    rfl

/-! ## Ranks of rounded numbers -/

/-- The rank of a number that is rounded, without its sign. -/
def roundedRank (m : Nat) (e : Int) (a : Accuracy) : ℤ ×ₗ ℤ ×ₗ ℤ :=
  placeRank (gridMantissa m e a) (gridExponent m e)

theorem gridMantissa_zero (e : Int) : gridMantissa 0 e .exact = 0 := by
  have h := shiftRight_bare 0 (gridExponent 0 e - e).toNat
  rw [Nat.zero_mul] at h
  exact congrArg ExtendedMantissa.roundedMantissa h

theorem roundedRank_zero (e : Int) : roundedRank 0 e .exact = 0 := by
  rw [roundedRank, gridMantissa_zero, placeRank, if_pos rfl]

theorem gridExponent_mul {m : Nat} (hm : m ≠ 0) (e : Int) (k : Nat) :
    gridExponent (m * 2 ^ k) (e - k) = gridExponent m e := by
  rw [gridExponent_eq, gridExponent_eq, log2_mul_two_pow hm]
  omega

section

variable {m n : Nat} {e : Int} (he : e ≤ gridExponent m e)
include he

/-- A number has one rank, however fine it is spelled. -/
theorem roundedRank_mul (k : Nat) :
    roundedRank (m * 2 ^ k) (e - k) .exact = roundedRank m e .exact := by
  by_cases hm : m = 0
  · rw [hm, Nat.zero_mul, roundedRank_zero, roundedRank_zero]
  · have hshift : (gridExponent m e - (e - k)).toNat = k + (gridExponent m e - e).toNat := by omega
    have hbare : bare (m * 2 ^ k) >>> (k + (gridExponent m e - e).toNat) =
        bare m >>> (gridExponent m e - e).toNat := by
      rw [shiftRight_add, shiftRight_bare]
    rw [roundedRank, roundedRank, gridExponent_mul hm, gridMantissa, gridExponent_mul hm, hshift]
    exact congrArg (placeRank ·.roundedMantissa _) hbare

/-- The rank of a number that is spelled finer than its grid. -/
theorem rank?_round (s : Sign) (a : Accuracy) :
    rank? (Float.Model.pack (roundWithAccuracy Format.binary64 s m e a)).unpack =
      some (signedRank s (roundedRank m e a)) := by
  have hon : e + (gridExponent m e - e).toNat = gridExponent m e := by omega
  have hleast : -1074 ≤ gridExponent m e := by
    rw [gridExponent_eq]
    omega
  rw [roundWithAccuracy_eq, hon, rank?_placed s hleast (gridMantissa_ge he a), roundedRank]

/-- **Rounding keeps the order** of numbers that are not negative. -/
theorem roundedRank_le {a b : Accuracy}
    (h : quarters (.ofMantissaAndAccuracy m a) ≤ quarters (.ofMantissaAndAccuracy n b)) :
    roundedRank m e a ≤ roundedRank n e b := by
  have hmn : m ≤ n := by
    have hm := mantissa_ofMantissaAndAccuracy m a
    have hn := mantissa_ofMantissaAndAccuracy n b
    have := quarters_div (.ofMantissaAndAccuracy m a)
    have := quarters_div (.ofMantissaAndAccuracy n b)
    omega
  have hlog : m.log2 ≤ n.log2 := by
    by_cases hm : m = 0
    · subst hm
      simp
    · rw [Nat.le_log2 (by omega)]
      exact (Nat.log2_self_le hm).trans hmn
  have hgrids : gridExponent m e ≤ gridExponent n e := by
    rw [gridExponent_eq, gridExponent_eq]
    omega
  apply placeRank_le (gridMantissa_le ..) (gridMantissa_le ..)
  obtain hsame | hwider := eq_or_lt_of_le hgrids
  · refine .inl ⟨hsame, ?_⟩
    unfold gridMantissa
    rw [hsame]
    exact roundedMantissa_le (quarters_shiftRight_le h _)
  · refine .inr ⟨hwider, gridMantissa_ge (he.trans hgrids) b ?_⟩
    have : -1074 ≤ gridExponent m e := by
      rw [gridExponent_eq]
      omega
    omega

end

end RealRoots
