import RealRoots.Proofs.Number.Monotone
import RealRoots.Proofs.Number.Reading

/-!
# Arithmetic on doubles is rounded arithmetic

A finite double is a rational number (`rat`). A sum, difference or product of two is that of the
numbers, rounded (`rounds_add`, `rounds_sub`, `rounds_mul`), and so is the double of a natural
number (`rounds_ofNat`).

**Theorem (`Rounds.le`).** Rounding keeps the order of numbers. A number that is too large for a
double is rounded to an infinity, and this holds there too.

So inequalities between numbers are inequalities between doubles, and the order of finite doubles is
that of the numbers (`le_iff_rat_le`).
-/

namespace RealRoots

open Float.Model Float.Model.UnpackedFloat

/-- The number that a finite double is. It is zero for a double that is not finite. -/
def rat (x : Float) : ℚ :=
  match x.toModel.unpack with
  | .finite s m e _ => (s.apply m : ℤ) * 2 ^ e
  | _ => 0

/-- A double is what a number is rounded to. The number is spelled finer than its grid. -/
def Rounds (q : ℚ) (x : Float) : Prop :=
  ∃ (s : Sign) (m : Nat) (e : Int), e ≤ gridExponent m e ∧ q = (s.apply m : ℤ) * 2 ^ e ∧
    x.toModel.unpack = (Float.Model.pack (roundWithAccuracy Format.binary64 s m e .exact)).unpack

theorem rat_of_finite {x : Float} {s : Sign} {m : Nat} {e : Int} {hm : 0 < m}
    (h : x.toModel.unpack = .finite s m e hm) : rat x = (s.apply m : ℤ) * 2 ^ e := by
  rw [rat, h]

theorem rat_of_zero {x : Float} {s : Sign} (h : x.toModel.unpack = .zero s) : rat x = 0 := by
  rw [rat, h]

theorem apply_zero (s : Sign) : s.apply 0 = 0 := by
  cases s <;> rfl

theorem apply_neg (s : Sign) (n : Int) : (-s).apply n = -s.apply n := by
  cases s
  case positive => rfl
  case negative => exact (Int.neg_neg n).symm

theorem apply_mul_natCast (s : Sign) (n k : Int) : s.apply (n * k) = s.apply n * k := by
  cases s <;> simp [Sign.apply]

theorem apply_mul_apply (s t : Sign) (m n : Int) :
    (s * t).apply (m * n) = s.apply m * t.apply n := by
  cases s <;> cases t
  case positive.positive => rfl
  case positive.negative => exact Int.neg_mul_eq_mul_neg m n
  case negative.positive => exact Int.neg_mul_eq_neg_mul m n
  case negative.negative => exact (Int.neg_mul_neg m n).symm

/-! ## What a number is rounded to -/

theorem scaled (z : Int) (e : Int) (k : Nat) :
    ((z * (2 ^ k : Nat) : Int) : ℚ) * 2 ^ (e - k) = z * 2 ^ e := by
  rw [zpow_sub₀ two_ne_zero]
  push_cast
  rw [zpow_natCast]
  field_simp

namespace Rounds

variable {p q : ℚ} {x y : Float}

theorem zero {s : Sign} (h : x.toModel.unpack = .zero s) : Rounds 0 x := by
  refine ⟨s, 0, -1074, by decide, by simp [apply_zero], ?_⟩
  rw [h]
  cases s <;> rfl

/-- A number that was normalized has been rounded. -/
theorem of_normalize {z e : Int} {s : Sign}
    (h : x.toModel.unpack =
      (Float.Model.pack (UnpackedFloat.normalize Format.binary64 z e s)).unpack) :
    Rounds (z * 2 ^ e) x := by
  have ofRound {t : Sign} {m : Nat} (hm : m ≠ 0)
      (h : x.toModel.unpack =
        (Float.Model.pack (UnpackedFloat.round Format.binary64 t m e)).unpack) :
      Rounds ((t.apply m : ℤ) * 2 ^ e) x := by
    let k := (e - gridExponent m e).toNat
    have hround : UnpackedFloat.round Format.binary64 t m e =
        roundWithAccuracy Format.binary64 t (m * 2 ^ k) (e - k) .exact := by
      rw [← Nat.shiftLeft_eq]
      rfl
    refine ⟨t, m * 2 ^ k, e - k, ?_, ?_, hround ▸ h⟩
    · rw [gridExponent_mul hm]
      omega
    · rw [Nat.cast_mul, apply_mul_natCast, scaled]
  obtain hz | rfl | hz := Int.lt_trichotomy z 0
  · have hlt : compare z 0 = .lt := Int.compare_eq_lt.2 hz
    simp only [UnpackedFloat.normalize, hlt] at h
    have hrounds := ofRound (by omega) h
    rwa [Int.toNat_of_nonneg (by omega), Sign.apply, Int.neg_neg] at hrounds
  · rw [Int.cast_zero, zero_mul]
    exact zero (h.trans (unpack_pack_zero s))
  · have hgt : compare z 0 = .gt := Int.compare_eq_gt.2 hz
    simp only [UnpackedFloat.normalize, hgt] at h
    have hrounds := ofRound (by omega) h
    rwa [Int.toNat_of_nonneg hz.le, Sign.apply] at hrounds

/-- What a number is rounded to has a rank, which can be found at any fine enough spelling. -/
theorem spelled (h : Rounds q x) : ∃ (s : Sign) (e₀ : Int), ∀ e ≤ e₀, ∃ m : Nat,
    e ≤ gridExponent m e ∧ q = (s.apply m : ℤ) * 2 ^ e ∧
      rank? x.toModel.unpack = some (signedRank s (roundedRank m e .exact)) := by
  obtain ⟨s, m, e, he, rfl, hx⟩ := h
  refine ⟨s, min e (-1074), fun e' he' => ?_⟩
  obtain ⟨k, rfl⟩ : ∃ k : Nat, e' = e - k := ⟨(e - e').toNat, by omega⟩
  refine ⟨m * 2 ^ k, ?_, ?_, ?_⟩
  · rw [gridExponent_eq]
    omega
  · rw [Nat.cast_mul, apply_mul_natCast, scaled]
  · rw [hx, rank?_round he, roundedRank_mul he]

/-- **Rounding keeps the order.** -/
theorem le (hp : Rounds p x) (hq : Rounds q y) (h : p ≤ q) : x ≤ y := by
  obtain ⟨s, e₁, hp⟩ := hp.spelled
  obtain ⟨t, e₂, hq⟩ := hq.spelled
  obtain ⟨m, hm, rfl, hx⟩ := hp (min e₁ e₂) (min_le_left ..)
  obtain ⟨n, hn, rfl, hy⟩ := hq (min e₁ e₂) (min_le_right ..)
  rw [mul_le_mul_iff_left₀ (by positivity), Int.cast_le] at h
  rw [le_iff, le_iff_rank]
  refine ⟨_, _, hx, hy, ?_⟩
  have hnonneg (m : Nat) : 0 ≤ roundedRank m (min e₁ e₂) .exact := placeRank_nonneg ..
  cases s <;> cases t <;> simp only [Sign.apply, signedRank] at h ⊢
  case positive.positive =>
    apply roundedRank_le hm
    simp only [quarters, ExtendedMantissa.ofMantissaAndAccuracy]
    omega
  case negative.negative =>
    apply neg_le_neg
    apply roundedRank_le hn
    simp only [quarters, ExtendedMantissa.ofMantissaAndAccuracy]
    omega
  case negative.positive =>
    exact (neg_nonpos.2 (hnonneg m)).trans (hnonneg n)
  case positive.negative =>
    obtain rfl : m = 0 := by omega
    obtain rfl : n = 0 := by omega
    rw [roundedRank_zero, neg_zero]

end Rounds

/-! ## Finite doubles -/

variable {x y : Float}

/-- **A finite double is the number that it is.** -/
theorem rounds_rat (h : x.isFinite) : Rounds (rat x) x := by
  obtain ⟨s, hx⟩ | ⟨s, m, e, hm, hx⟩ := isFinite_iff.1 h
  · rw [rat_of_zero hx]
    exact .zero hx
  · have hcanonical : IsCanonical m e := isCanonical_of_unpack hx
    refine ⟨s, m, e, hcanonical.onGrid.ge, rat_of_finite hx, ?_⟩
    rw [round_self s hm hcanonical.onGrid, unpack_pack_finite s hcanonical, hx]

theorem add_unpack (x y : Float) : (x + y).toModel.unpack = (Float.Model.pack
    (UnpackedFloat.add Format.binary64 x.toModel.unpack y.toModel.unpack)).unpack :=
  rfl

theorem mul_unpack (x y : Float) : (x * y).toModel.unpack = (Float.Model.pack
    (UnpackedFloat.mul Format.binary64 x.toModel.unpack y.toModel.unpack)).unpack :=
  rfl

theorem unpack_pack_self (x : Float) :
    (Float.Model.pack x.toModel.unpack).unpack = x.toModel.unpack := by
  rw [pack_unpack]

/-- Two numbers with any exponents are added at the smaller one. -/
theorem aligned (m : Int) {e f : Int} (h : f ≤ e) :
    (m * 2 ^ e : ℚ) = (m * (2 ^ (e - f).toNat : Nat) : Int) * 2 ^ f := by
  have := scaled m e (e - f).toNat
  rw [← this]
  congr 2
  omega

theorem rounds_add (hx : x.isFinite) (hy : y.isFinite) : Rounds (rat x + rat y) (x + y) := by
  have hsum := add_unpack x y
  obtain ⟨s, hx'⟩ | ⟨s, m, e, hm, hx'⟩ := isFinite_iff.1 hx <;>
    obtain ⟨t, hy'⟩ | ⟨t, n, f, hn, hy'⟩ := isFinite_iff.1 hy
  · rw [rat_of_zero hx', rat_of_zero hy', add_zero]
    rw [hx', hy'] at hsum
    obtain ⟨r, hr⟩ : ∃ r, UnpackedFloat.add Format.binary64 (.zero s) (.zero t) = .zero r := by
      cases s <;> cases t <;> exact ⟨_, rfl⟩
    rw [hr, unpack_pack_zero] at hsum
    exact .zero hsum
  · rw [hx', hy'] at hsum
    change _ = (Float.Model.pack (.finite t n f hn)).unpack at hsum
    rw [← hy', unpack_pack_self] at hsum
    rw [eq_of_unpack_eq hsum, rat_of_zero hx', zero_add]
    exact rounds_rat hy
  · rw [hx', hy'] at hsum
    change _ = (Float.Model.pack (.finite s m e hm)).unpack at hsum
    rw [← hx', unpack_pack_self] at hsum
    rw [eq_of_unpack_eq hsum, rat_of_zero hy', add_zero]
    exact rounds_rat hx
  · rw [hx', hy'] at hsum
    have hrounds := Rounds.of_normalize hsum
    rw [Nat.shiftLeft_eq, Nat.shiftLeft_eq, Nat.cast_mul, Nat.cast_mul, apply_mul_natCast,
      apply_mul_natCast, Int.cast_add, add_mul, ← aligned _ (min_le_left e f),
      ← aligned _ (min_le_right e f)] at hrounds
    rwa [rat_of_finite hx', rat_of_finite hy']

/-- A product of canonical parts is spelled finer than its grid: a factor has 53 bits, or both have
the least exponent. -/
theorem fine_mul {m n : Nat} {e f : Int} (hm : IsCanonical m e) (hn : IsCanonical n f) :
    e + f ≤ gridExponent (m * n) (e + f) := by
  obtain ⟨hm, he, -⟩ := hm
  obtain ⟨hn, hf, -⟩ := hn
  rw [gridExponent_eq] at he hf ⊢
  have hlong {k : Nat} (hk : k ≠ 0) (hle : k ≤ m * n) : k.log2 ≤ (m * n).log2 := by
    rw [Nat.le_log2 (Nat.mul_ne_zero hm.ne' hn.ne')]
    exact (Nat.log2_self_le hk).trans hle
  have := hlong hm.ne' (Nat.le_mul_of_pos_right m hn)
  have := hlong hn.ne' (Nat.le_mul_of_pos_left n hm)
  omega

theorem rounds_mul (hx : x.isFinite) (hy : y.isFinite) : Rounds (rat x * rat y) (x * y) := by
  have hproduct := mul_unpack x y
  obtain ⟨s, hx'⟩ | ⟨s, m, e, hm, hx'⟩ := isFinite_iff.1 hx <;>
    obtain ⟨t, hy'⟩ | ⟨t, n, f, hn, hy'⟩ := isFinite_iff.1 hy <;>
    rw [hx', hy'] at hproduct
  · rw [rat_of_zero hx', zero_mul]
    exact .zero (hproduct.trans (unpack_pack_zero (s * t)))
  · rw [rat_of_zero hx', zero_mul]
    exact .zero (hproduct.trans (unpack_pack_zero (s * t)))
  · rw [rat_of_zero hy', mul_zero]
    exact .zero (hproduct.trans (unpack_pack_zero (s * t)))
  · refine ⟨s * t, m * n, e + f, ?_, ?_, hproduct⟩
    · exact fine_mul (isCanonical_of_unpack hx') (isCanonical_of_unpack hy')
    · rw [rat_of_finite hx', rat_of_finite hy', Nat.cast_mul, apply_mul_apply, Int.cast_mul,
        zpow_add₀ two_ne_zero]
      ring

/-! ## Operands of finite results -/

theorem isFinite_of_add (h : (x + y).isFinite) : x.isFinite ∧ y.isFinite := by
  change (x + y).toModel.unpack.isFinite at h
  change x.toModel.unpack.isFinite ∧ y.toModel.unpack.isFinite
  rw [add_unpack] at h
  generalize x.toModel.unpack = u at h ⊢
  generalize y.toModel.unpack = v at h ⊢
  cases u <;> cases v
  case infinity.infinity s t => cases s <;> cases t <;> cases h
  all_goals simp_all [UnpackedFloat.isFinite, UnpackedFloat.add, unpack_pack_nan,
    unpack_pack_infinity]

theorem isFinite_of_mul (h : (x * y).isFinite) : x.isFinite ∧ y.isFinite := by
  change (x * y).toModel.unpack.isFinite at h
  change x.toModel.unpack.isFinite ∧ y.toModel.unpack.isFinite
  rw [mul_unpack] at h
  generalize x.toModel.unpack = u at h ⊢
  generalize y.toModel.unpack = v at h ⊢
  cases u <;> cases v <;> simp_all [UnpackedFloat.isFinite, UnpackedFloat.mul, unpack_pack_nan,
    unpack_pack_infinity]

/-- A quotient of a finite double may have an infinite divisor. -/
theorem isFinite_of_div (h : (x / y).isFinite) : x.isFinite := by
  change (x / y).toModel.unpack.isFinite at h
  change x.toModel.unpack.isFinite
  rw [div_unpack] at h
  generalize x.toModel.unpack = u at h ⊢
  generalize y.toModel.unpack = v at h
  cases u <;> cases v <;> simp_all [UnpackedFloat.isFinite, UnpackedFloat.div, unpack_pack_nan,
    unpack_pack_infinity]

/-! ## Differences -/

theorem unpack_neg_of_isFinite (h : x.isFinite) :
    (-x).toModel.unpack = x.toModel.unpack.neg := by
  rw [unpack_neg]
  obtain ⟨s, hx⟩ | ⟨s, m, e, hm, hx⟩ := isFinite_iff.1 h <;> rw [hx]
  · exact unpack_pack_zero (-s)
  · exact unpack_pack_finite (-s) (isCanonical_of_unpack hx)

theorem rat_neg (h : x.isFinite) : rat (-x) = -rat x := by
  have hneg := unpack_neg_of_isFinite h
  obtain ⟨s, hx⟩ | ⟨s, m, e, hm, hx⟩ := isFinite_iff.1 h <;> rw [hx] at hneg
  · rw [rat_of_zero hneg, rat_of_zero hx, neg_zero]
  · rw [rat_of_finite hneg, rat_of_finite hx, apply_neg, Int.cast_neg, neg_mul]

theorem sub_eq_add_neg_of_isFinite (x : Float) (h : y.isFinite) : x - y = x + -y := by
  apply eq_of_unpack_eq
  rw [sub_unpack, add_unpack, unpack_neg_of_isFinite h]
  generalize y.toModel.unpack = v
  cases x.toModel.unpack <;> cases v
  case finite.finite s m e hm t n f hn =>
    simp only [UnpackedFloat.sub, UnpackedFloat.add, UnpackedFloat.neg, apply_neg,
      Int.sub_eq_add_neg]
  all_goals rfl

theorem rounds_sub (hx : x.isFinite) (hy : y.isFinite) : Rounds (rat x - rat y) (x - y) := by
  have h := rounds_add hx ((neg_isFinite y).trans hy)
  rwa [rat_neg hy, ← sub_eq_add_neg, ← sub_eq_add_neg_of_isFinite x hy] at h

/-! ## Natural numbers -/

theorem one_unpack : (1 : Float).toModel.unpack = .finite .positive (2 ^ 52) (-52) (by decide) := by
  rfl

theorem rat_zero : rat 0 = 0 :=
  rat_of_zero rfl

theorem rat_one : rat 1 = 1 := by
  rw [rat_of_finite one_unpack, Sign.apply]
  norm_num

theorem mul_one_eq_self (x : Float) : x * 1 = x := by
  apply eq_of_unpack_eq
  have hsign (s : Sign) : s * .positive = s := by
    cases s <;> rfl
  rw [mul_unpack, one_unpack]
  cases hx : x.toModel.unpack with
  | notANumber => rfl
  | infinity s | zero s => cases s <;> rfl
  | finite s m e hm =>
    have hcanonical : IsCanonical m e := isCanonical_of_unpack hx
    rw [UnpackedFloat.mul, hsign, show e + -52 = e - (52 : Nat) from rfl,
      round_mul s hm.ne' hcanonical.onGrid.ge, round_self s hm hcanonical.onGrid,
      unpack_pack_finite s hcanonical]

theorem toFloat_of_lt {n : Nat} (h : n < 2 ^ 53) : n.toFloat = n.toUInt64.toFloat * 1 := by
  change Float.ofScientific n false 0 = _
  rw [Float.ofScientific, dif_pos ⟨h, by decide⟩]
  rfl

theorem toFloat_of_ge {n : Nat} (h : ¬ n < 2 ^ 53) : n.toFloat.toModel.unpack =
    (Float.Model.pack (UnpackedFloat.ofScientific Format.binary64 n (0 : Nat))).unpack := by
  change (Float.ofScientific n false 0).toModel.unpack = _
  rw [Float.ofScientific, dif_neg (by omega)]
  rfl

/-- **A natural number is rounded to its double**, also where its digits are read exactly. -/
theorem rounds_ofNat (n : Nat) : Rounds n n.toFloat := by
  by_cases h : n < 2 ^ 53
  · have hword : n.toUInt64.toNat = n := by
      rw [Nat.toUInt64, UInt64.toNat_ofNat_of_lt']
      exact h.trans (by decide)
    have hunpack : n.toUInt64.toFloat.toModel.unpack = (Float.Model.pack
        (UnpackedFloat.normalize Format.binary64 n.toUInt64.toNat 0 .positive)).unpack :=
      rfl
    have hrounds := Rounds.of_normalize hunpack
    rw [hword, zpow_zero, mul_one, Int.cast_natCast] at hrounds
    rwa [toFloat_of_lt h, mul_one_eq_self]
  · have hround := toFloat_of_ge h
    rw [ofScientific_of_nonneg 0 (by omega) (by decide)] at hround
    refine ⟨.positive, n * 10 ^ 0 * 2 ^ 53, -53, ?_, ?_, hround⟩
    · rw [gridExponent_eq, log2_mul_two_pow (by omega)]
      omega
    · simpa [Sign.apply] using (scaled n 0 53).symm

/-! ## The order of the numbers -/

/-- Equal doubles are one number. -/
theorem rat_eq_of_beq (h : x == y) : rat x = rat y := by
  obtain ⟨a, ha, hb⟩ := beq_iff_rank.1 (beq_iff.1 h)
  have hrank := ha.trans hb.symm
  unfold rat
  generalize x.toModel.unpack = u at hrank ⊢
  generalize y.toModel.unpack = v at hrank ⊢
  rcases u with (_ | _) | _ | _ | ⟨_ | _, m, e, hm⟩ <;>
    rcases v with (_ | _) | _ | _ | ⟨_ | _, n, f, hn⟩ <;>
    simp [rank?] at hrank ⊢
  all_goals simp [hrank]

section

variable (hx : x.isFinite) (hy : y.isFinite)
include hx hy

/-- **Finite doubles are in the order of the numbers that they are.** -/
theorem le_iff_rat_le : x ≤ y ↔ rat x ≤ rat y := by
  refine ⟨fun h => ?_, (rounds_rat hx).le (rounds_rat hy)⟩
  obtain hle | hge := le_total (rat x) (rat y)
  · exact hle
  · exact (rat_eq_of_beq (beq_of_le_of_ge h ((rounds_rat hy).le (rounds_rat hx) hge))).le

theorem lt_iff_rat_lt : x < y ↔ rat x < rat y := by
  constructor
  · intro h
    by_contra hge
    exact not_lt_of_le ((le_iff_rat_le hy hx).2 (not_lt.1 hge)) h
  · intro h
    by_contra hge
    exact h.not_ge ((le_iff_rat_le hy hx).1 (le_of_not_lt hx hy hge))

theorem beq_iff_rat_eq : x == y ↔ rat x = rat y :=
  ⟨rat_eq_of_beq, fun h =>
    beq_of_le_of_ge ((le_iff_rat_le hx hy).2 h.le) ((le_iff_rat_le hy hx).2 h.ge)⟩

end

/-- What lies between finite doubles is finite. -/
theorem isFinite_of_between {z : Float} (hx : x.isFinite) (hz : z.isFinite) (h : x ≤ y)
    (h' : y ≤ z) : y.isFinite := by
  rw [le_iff] at h h'
  by_contra hy
  obtain hy | ⟨s, hy⟩ := not_isFinite_iff.1 hy <;> rw [hy] at h h'
  · cases hz' : z.toModel.unpack <;> rw [hz'] at h' <;> cases h'
  · obtain ⟨t, hx⟩ | ⟨t, m, e, hm, hx⟩ := isFinite_iff.1 hx <;>
      obtain ⟨r, hz⟩ | ⟨r, n, f, hn, hz⟩ := isFinite_iff.1 hz <;>
      simp [hx, hz, UnpackedFloat.le, UnpackedFloat.compare] at h h' <;>
      cases s <;> simp at h h'

theorem isFinite_of_beq (h : x == y) (hy : y.isFinite) : x.isFinite := by
  obtain ⟨a, hx, hy'⟩ := beq_iff_rank.1 (beq_iff.1 h)
  apply isFinite_of_between hy hy <;> rw [le_iff, le_iff_rank]
  · exact ⟨a, a, hy', hx, le_rfl⟩
  · exact ⟨a, a, hx, hy', le_rfl⟩

/-- Nothing is lost of a number that is a double. -/
theorem Rounds.exact {z : Float} (h : Rounds (rat z) x) (hz : z.isFinite) :
    x.isFinite ∧ rat x = rat z := by
  have hle := h.le (rounds_rat hz) le_rfl
  have hge := (rounds_rat hz).le h le_rfl
  exact ⟨isFinite_of_between hz hz hge hle, rat_eq_of_beq (beq_of_le_of_ge hle hge)⟩

end RealRoots
