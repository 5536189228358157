import RealRoots.Proofs.Expr.Strictness
import RealRoots.Proofs.Number.Quotients

/-!
# Powers

**Theorem (`power_gives_iff`).** A power of two finite doubles gives what it ought to (`PowerGives`)
exactly in the cases that are checked (`PowerIsChecked`). Then it is refused for its base if that is
negative and the exponent no integer, and as a division by zero if the base is zero and the exponent
negative; in all other cases it has a value, unless this overflows. The cases that are not checked
are those of a negative base with a large integer as exponent, which is refused though it has a
value, and of a zero with a negative exponent that is no small integer, which is not seen to be a
division.

A product of squares only fails by overflowing, since it is never zero times infinity: the factors
are all at most one in size, or all at least one (`powInt_not_isNaN`), and rounding keeps them so.
Of the floating-point power it is assumed that it is a number unless the base is negative.
-/

namespace RealRoots

open Float.Model Float.Model.UnpackedFloat

/-! ## Integers among the doubles -/

theorem Dyadic.nat?_eq_some {d : Dyadic} {n : Nat} :
    d.nat? = some n ↔ (d.mantissa : ℚ) * 2 ^ d.exponent = n := by
  obtain ⟨m, e⟩ := d
  obtain ⟨k, rfl | rfl⟩ := Int.eq_nat_or_neg e
  · have hnat : nat? ⟨m, k⟩ = some (m * 2 ^ k) := by
      simp [nat?, ratio, Nat.mod_one]
    rw [hnat, Option.some_inj, zpow_natCast]
    norm_cast
  · have hnat : nat? ⟨m, -k⟩ = if m % 2 ^ k = 0 then some (m / 2 ^ k) else none := by
      simp [nat?, ratio]
    have hpow : (0 : ℚ) < 2 ^ k := by positivity
    rw [hnat, zpow_neg, zpow_natCast, ← div_eq_mul_inv, div_eq_iff hpow.ne']
    norm_cast
    constructor
    · intro h
      split at h
      · obtain rfl := Option.some.inj h
        exact (Nat.div_mul_cancel (Nat.dvd_of_mod_eq_zero ‹_›)).symm
      · cases h
    · rintro rfl
      simp

variable {x y a b : Float}

theorem rat_of_shape {negative : Bool} {size : Dyadic} (h : Shape.of x = .finite negative size) :
    rat x = (if negative then -1 else 1) * (size.mantissa * 2 ^ size.exponent) := by
  obtain ⟨s, hx, rfl, rfl⟩ | ⟨s, hm, hx, rfl⟩ := Shape.unpack_of_eq h
  · rw [rat_of_zero hx]
    simp
  · rw [rat_of_finite hx]
    cases s <;> simp [Sign.apply]

theorem exists_nat_of_nonneg {q : ℚ} {n : Int} (hq : 0 ≤ q) (h : q = n) :
    ∃ k : Nat, q = k ∧ n = k := by
  rw [h, Int.cast_nonneg_iff] at hq
  obtain ⟨k, rfl⟩ := Int.eq_ofNat_of_zero_le hq
  exact ⟨k, h, rfl⟩

/-- **An integer is found where there is one.** -/
theorem whole?_eq_some {n : Int} : whole? x = some n ↔ x.isFinite ∧ rat x = n := by
  unfold whole?
  cases hshape : Shape.of x with
  | nan | infinite =>
    refine ⟨nofun, fun ⟨hfinite, _⟩ => ?_⟩
    obtain ⟨negative, size, hsize⟩ := Shape.of_eq_finite hfinite
    rw [hshape] at hsize
    cases hsize
  | finite negative size =>
    have hrat := rat_of_shape hshape
    have hsize : (0 : ℚ) ≤ size.mantissa * 2 ^ size.exponent := by positivity
    simp only [Shape.isFinite_of_eq hshape, true_and, Option.map_eq_some_iff,
      Option.bind_eq_bind, Option.bind_eq_some_iff, Option.pure_def, Option.some_inj]
    constructor
    · rintro ⟨_, ⟨k, hk, rfl⟩, rfl⟩
      rw [hrat, Dyadic.nat?_eq_some.1 hk]
      cases negative <;> simp
    · intro h
      rw [hrat] at h
      cases negative with
      | false =>
        obtain ⟨k, hk, rfl⟩ := exists_nat_of_nonneg (n := n) hsize (by simpa using h)
        exact ⟨k, ⟨k, Dyadic.nat?_eq_some.2 hk, rfl⟩, rfl⟩
      | true =>
        obtain ⟨k, hk, hn⟩ := exists_nat_of_nonneg (n := -n) hsize (by simp [← h])
        exact ⟨k, ⟨k, Dyadic.nat?_eq_some.2 hk, rfl⟩, by simp [← hn]⟩

/-! ## Products that stay on one side of one -/

/-- At most one in size. -/
def IsSmall (x : Float) : Prop :=
  -1 ≤ x ∧ x ≤ 1

/-- At least one in size, or infinite. -/
def IsLarge (x : Float) : Prop :=
  x ≤ -1 ∨ 1 ≤ x

theorem rat_neg_one : rat (-1) = -1 := by
  rw [rat_neg (by decide), rat_one]

theorem one_isFinite : (1 : Float).isFinite := by
  decide

theorem neg_one_isFinite : (-1 : Float).isFinite := by
  decide

theorem isSmall_iff : IsSmall x ↔ x.isFinite ∧ |rat x| ≤ 1 := by
  rw [abs_le]
  constructor
  · rintro ⟨hlow, hhigh⟩
    have hx := isFinite_of_between neg_one_isFinite one_isFinite hlow hhigh
    rw [le_iff_rat_le neg_one_isFinite hx, rat_neg_one] at hlow
    rw [le_iff_rat_le hx one_isFinite, rat_one] at hhigh
    exact ⟨hx, hlow, hhigh⟩
  · rintro ⟨hx, hlow, hhigh⟩
    rw [IsSmall, le_iff_rat_le neg_one_isFinite hx, le_iff_rat_le hx one_isFinite, rat_neg_one,
      rat_one]
    exact ⟨hlow, hhigh⟩

theorem isLarge_iff (hx : x.isFinite) : IsLarge x ↔ 1 ≤ |rat x| := by
  rw [IsLarge, le_iff_rat_le hx neg_one_isFinite, le_iff_rat_le one_isFinite hx, rat_neg_one,
    rat_one, le_abs', or_comm]

theorem isSmall_or_isLarge (hx : x.isFinite) : IsSmall x ∨ IsLarge x := by
  rw [isSmall_iff, isLarge_iff hx]
  exact (le_total |rat x| 1).imp_left (⟨hx, ·⟩)

theorem IsSmall.mul (hx : IsSmall x) (hy : IsSmall y) : IsSmall (x * y) := by
  obtain ⟨hxFinite, hx⟩ := isSmall_iff.1 hx
  obtain ⟨hyFinite, hy⟩ := isSmall_iff.1 hy
  have hproduct := rounds_mul hxFinite hyFinite
  have hsize : |rat x * rat y| ≤ 1 := by
    rw [abs_mul]
    exact mul_le_one₀ hx (abs_nonneg _) hy
  obtain ⟨hlow, hhigh⟩ := abs_le.1 hsize
  exact ⟨(rounds_rat neg_one_isFinite).le hproduct (rat_neg_one ▸ hlow),
    hproduct.le (rounds_rat one_isFinite) (rat_one ▸ hhigh)⟩

theorem isLarge_of_infinity {s : Sign} (h : x.toModel.unpack = .infinity s) : IsLarge x := by
  rw [IsLarge, le_iff, le_iff, h]
  cases s with
  | positive => exact .inr rfl
  | negative => exact .inl rfl

/-- What is large is an infinity, or finite and not a zero. -/
theorem IsLarge.unpack (h : IsLarge x) : (∃ s, x.toModel.unpack = .infinity s) ∨
    ∃ s m e hm, x.toModel.unpack = .finite s m e hm := by
  rw [IsLarge, le_iff, le_iff] at h
  cases hx : x.toModel.unpack with
  | notANumber | zero =>
    rw [hx] at h
    obtain h | h := h <;> cases h
  | infinity s => exact .inl ⟨s, rfl⟩
  | finite s m e hm => exact .inr ⟨s, m, e, hm, rfl⟩

theorem IsLarge.mul (hx : IsLarge x) (hy : IsLarge y) : IsLarge (x * y) := by
  have hproduct := mul_unpack x y
  obtain ⟨s, hx'⟩ | ⟨s, m, e, hm, hx'⟩ := hx.unpack <;>
    obtain ⟨t, hy'⟩ | ⟨t, n, f, hn, hy'⟩ := hy.unpack
  case inr.inr =>
    have hxFinite : x.isFinite := isFinite_iff.2 (.inr ⟨s, m, e, hm, hx'⟩)
    have hyFinite : y.isFinite := isFinite_iff.2 (.inr ⟨t, n, f, hn, hy'⟩)
    have hproduct := rounds_mul hxFinite hyFinite
    have hsize : 1 ≤ |rat x * rat y| := by
      rw [abs_mul]
      exact one_le_mul_of_one_le_of_one_le ((isLarge_iff hxFinite).1 hx)
        ((isLarge_iff hyFinite).1 hy)
    obtain hlow | hhigh := le_abs'.1 hsize
    · exact .inl (hproduct.le (rounds_rat neg_one_isFinite) (rat_neg_one ▸ hlow))
    · exact .inr ((rounds_rat one_isFinite).le hproduct (rat_one ▸ hhigh))
  all_goals
    rw [hx', hy'] at hproduct
    exact isLarge_of_infinity (hproduct.trans (unpack_pack_infinity (s * t)))

/-! ## Powers by repeated squaring -/

/-- What products keep is kept by a power. -/
theorem powNat_induction {P : Float → Prop} (hmul : ∀ x y, P x → P y → P (x * y))
    {product base : Float} (hproduct : P product) (hbase : P base) (n : Nat) :
    P (powNat product base n) := by
  induction n using Nat.strongRecOn generalizing product base with
  | ind n ih =>
    have hnext : P (if n % 2 = 1 then product * base else product) := by
      split
      · exact hmul _ _ hproduct hbase
      · exact hproduct
    rw [powNat]
    split
    · exact hnext
    · exact ih (n / 2) (by omega) hnext (hmul _ _ hbase hbase)

theorem powNat_not_isNaN {base : Float} (h : base.isFinite) (n : Nat) :
    ¬ (powNat 1 base n).isNaN := by
  obtain h | h := isSmall_or_isLarge h
  · have hsmall := powNat_induction (P := IsSmall) (fun _ _ => IsSmall.mul)
      (isSmall_iff.2 ⟨one_isFinite, by rw [rat_one, abs_one]⟩) h n
    exact (not_isNaN_of_le hsmall.2).1
  · have hlarge := powNat_induction (P := IsLarge) (fun _ _ => IsLarge.mul)
      ((isLarge_iff one_isFinite).2 (by rw [rat_one, abs_one])) h n
    exact hlarge.elim (fun h => (not_isNaN_of_le h).1) fun h => (not_isNaN_of_le h).2

theorem one_div_not_isNaN (h : ¬ x.isNaN) : ¬ (1 / x).isNaN := by
  change ¬ x.toModel.unpack.isNaN at h
  cases hx : x.toModel.unpack with
  | finite s m e hm => exact not_isNaN_of_rank? (rank?_div one_unpack hx)
  | notANumber =>
    rw [hx] at h
    exact absurd rfl h
  | infinity s | zero s =>
    change ¬ (1 / x).toModel.unpack.isNaN
    rw [div_unpack, one_unpack, hx]
    cases s <;> exact nofun

/-- **A power of a finite double is a number**, though it may overflow. -/
theorem powInt_not_isNaN {base : Float} (h : base.isFinite) (n : Int) :
    ¬ (powInt base n).isNaN := by
  unfold powInt
  dsimp only
  split
  · exact one_div_not_isNaN (powNat_not_isNaN h _)
  · exact powNat_not_isNaN h _

/-! ## Small exponents -/

/-- A finite double is an integer. -/
def IsInteger (b : Float) : Prop :=
  ∃ n : Int, rat b = n

theorem smallPower?_eq_some {n : Int} (hb : b.isFinite) :
    smallPower? b = some n ↔ rat b = n ∧ |rat b| ≤ maxPower := by
  rw [smallPower?, Option.filter_eq_some_iff, whole?_eq_some, decide_eq_true_iff]
  simp only [hb, true_and]
  refine and_congr_right fun h => ?_
  rw [h, ← Int.cast_abs, ← Nat.cast_le (α := ℚ), Nat.cast_natAbs]

theorem smallPower?_eq_none (hb : b.isFinite) :
    smallPower? b = none ↔ ¬ (IsInteger b ∧ |rat b| ≤ maxPower) := by
  rw [Option.eq_none_iff_forall_ne_some]
  simp only [ne_eq, smallPower?_eq_some hb, IsInteger]
  constructor
  · rintro h ⟨⟨n, hn⟩, hle⟩
    exact h n ⟨hn, hle⟩
  · rintro h n ⟨hn, hle⟩
    exact h ⟨⟨n, hn⟩, hle⟩

/-! ## What a power ought to give -/

/-- The power of two doubles, which may overflow. -/
def powerValue (a b : Float) : Float :=
  match smallPower? b with
  | some n => powInt a n
  | none => a.pow b

/-- A power of finite doubles has no value if a negative base has an exponent that is no integer, if
a zero has a negative exponent, or if it overflows. -/
inductive PowerGives (x a b : Float) : Except EvalError Float → Prop
  | domain : a < 0 → ¬ IsInteger b → PowerGives x a b (.error (.domain "^" a x))
  | zeroBase : a == 0 → b < 0 → PowerGives x a b (.error (.divisionByZero x))
  | value : (a < 0 → IsInteger b) → (a == 0 → ¬ b < 0) → (powerValue a b).isFinite →
      PowerGives x a b (.ok (powerValue a b))
  | overflow : (a < 0 → IsInteger b) → (a == 0 → ¬ b < 0) → (powerValue a b).isInf →
      PowerGives x a b (.error (.nonFinite x))

/-- The cases in which a power that has a value is recognized, and one that has none refused for the
right reason: the exponents of negative bases, if they are integers, and the negative exponents of
zeros are small integers. -/
def PowerIsChecked (a b : Float) : Prop :=
  (a < 0 → IsInteger b → |rat b| ≤ maxPower) ∧
    (a == 0 → b < 0 → IsInteger b ∧ |rat b| ≤ maxPower)

theorem not_lt_zero_of_beq_zero (h : a == 0) (ha : a.isFinite) : ¬ a < 0 := by
  rw [lt_iff_rat_lt ha (by decide), (beq_iff_rat_eq ha (by decide)).1 h]
  exact lt_irrefl _

/-- A value that is a number is finite or overflows. -/
theorem powerGives_finite {x : Float} (hbase : a < 0 → IsInteger b) (hzero : a == 0 → ¬ b < 0)
    (hnumber : ¬ (powerValue a b).isNaN) : PowerGives x a b (finite x (powerValue a b)) := by
  unfold finite
  split
  · exact .value hbase hzero ‹_›
  · exact .overflow hbase hzero (isInf_of_not_isFinite ‹_› hnumber)

theorem powerGives_of_small {x : Float} {n : Int} (ha : a.isFinite) (hb : b.isFinite)
    (hn : smallPower? b = some n) : PowerGives x a b (power x a b >>= finite x) := by
  have hrat := ((smallPower?_eq_some hb).1 hn).1
  have hneg : b < 0 ↔ n < 0 := by
    rw [lt_iff_rat_lt hb (by decide), hrat, rat_zero, Int.cast_lt_zero]
  have hvalue : powerValue a b = powInt a n := by
    rw [powerValue, hn]
  unfold power
  rw [hn]
  dsimp only
  split
  case isTrue h =>
    obtain ⟨hzero, hn⟩ : a == 0 ∧ n < 0 := by simpa using h
    exact .zeroBase hzero (hneg.2 hn)
  case isFalse h =>
    rw [ok_bind, ← hvalue]
    refine powerGives_finite (fun _ => ⟨n, hrat⟩) (fun hzero hb => ?_) ?_
    · exact h (by simpa [hzero] using hneg.1 hb)
    · rw [hvalue]
      exact powInt_not_isNaN ha n

theorem PowerGives.eq_of_zero {x : Float} {outcome : Except EvalError Float}
    (h : PowerGives x a b outcome) (ha : a.isFinite) (hzero : a == 0) (hb : b < 0) :
    outcome = .error (.divisionByZero x) := by
  cases h with
  | domain hneg => exact absurd hneg (not_lt_zero_of_beq_zero hzero ha)
  | zeroBase => rfl
  | value _ hpos | overflow _ hpos => exact absurd hb (hpos hzero)

section

variable {x : Float} (hn : smallPower? b = none)
include hn

theorem power_of_negative (h : a < 0) : power x a b = .error (.domain "^" a x) := by
  rw [power, hn]
  exact if_pos h

theorem power_of_not_negative (h : ¬ a < 0) : power x a b = .ok (a.pow b) := by
  rw [power, hn]
  exact if_neg h

end

/-- Other exponents than small integers are left to the floating-point power. -/
theorem powerGives_iff_of_not_small {x : Float} (ha : a.isFinite) (hb : b.isFinite)
    (hn : smallPower? b = none) (hpow : ¬ a < 0 → ¬ (a.pow b).isNaN) :
    PowerGives x a b (power x a b >>= finite x) ↔ PowerIsChecked a b := by
  have hlarge := (smallPower?_eq_none hb).1 hn
  have hvalue : powerValue a b = a.pow b := by
    rw [powerValue, hn]
  by_cases hneg : a < 0
  · have hzero : ¬ a == 0 := fun h => not_lt_zero_of_beq_zero h ha hneg
    rw [power_of_negative hn hneg, error_bind]
    constructor
    · intro h
      cases h with
      | domain _ hinteger => exact ⟨fun _ h => absurd h hinteger, fun h => absurd h hzero⟩
    · rintro ⟨hsmall, -⟩
      exact .domain hneg fun h => hlarge ⟨h, hsmall hneg h⟩
  · rw [power_of_not_negative hn hneg, ok_bind, ← hvalue]
    constructor
    · refine fun h => ⟨fun h => absurd h hneg, fun hzero hb => ?_⟩
      have hdivision := h.eq_of_zero ha hzero hb
      obtain ⟨-, h⟩ := finite_eq_error.1 hdivision
      cases h
    · rintro ⟨-, hsmall⟩
      have hpos (hzero : a == 0) : ¬ b < 0 := fun hb => hlarge (hsmall hzero hb)
      refine powerGives_finite (fun h => absurd h hneg) hpos ?_
      rw [hvalue]
      exact hpow hneg

theorem Expr.eval_pow {left right : Expr} {x : Float} (ha : left.eval x = .ok a)
    (hb : right.eval x = .ok b) :
    (binary .pow left right).eval x = (power x a b >>= finite x) := by
  rw [eval, ha, ok_bind, hb, ok_bind]
  rfl

/-- **What a power gives.** The floating-point power is only asked not to be a NaN where the base is
not negative, and what is said of the cases that are not checked does not need this. -/
theorem power_gives_iff (left right : Expr) (x a b : Float) (ha : left.eval x = .ok a)
    (hb : right.eval x = .ok b) :
    ((smallPower? b = none → ¬ a < 0 → ¬ (a.pow b).isNaN) →
      (PowerGives x a b ((Expr.binary .pow left right).eval x) ↔ PowerIsChecked a b)) ∧
    (a < 0 → IsInteger b → ¬ |rat b| ≤ maxPower →
      (Expr.binary .pow left right).eval x = .error (.domain "^" a x)) ∧
    (a == 0 → b < 0 → ¬ (IsInteger b ∧ |rat b| ≤ maxPower) →
      (Expr.binary .pow left right).eval x = finite x (a.pow b)) := by
  have haFinite := Expr.eval_isFinite ha
  have hbFinite := Expr.eval_isFinite hb
  rw [Expr.eval_pow ha hb]
  refine ⟨?_, ?_, ?_⟩
  · intro hpow
    cases hn : smallPower? b with
    | none => exact powerGives_iff_of_not_small haFinite hbFinite hn (hpow hn)
    | some n =>
      have hgives := powerGives_of_small (x := x) haFinite hbFinite hn
      obtain ⟨hinteger, hsmall⟩ := (smallPower?_eq_some hbFinite).1 hn
      exact iff_of_true hgives ⟨fun _ _ => hsmall, fun _ _ => ⟨⟨n, hinteger⟩, hsmall⟩⟩
  · intro hneg _ hlarge
    have hn := (smallPower?_eq_none hbFinite).2 fun h => hlarge h.2
    rw [power_of_negative hn hneg, error_bind]
  · intro hzero _ hlarge
    have hn := (smallPower?_eq_none hbFinite).2 hlarge
    rw [power_of_not_negative hn (not_lt_zero_of_beq_zero hzero haFinite), ok_bind]

/-- The integer is one more than the largest small exponent. -/
theorem isInteger_and_not_small : IsInteger 2147483648 ∧ ¬ |rat 2147483648| ≤ maxPower := by
  have hwhole : whole? 2147483648 = some 2147483648 := by decide +kernel
  obtain ⟨-, hrat⟩ := whole?_eq_some.1 hwhole
  refine ⟨⟨_, hrat⟩, ?_⟩
  rw [hrat, maxPower]
  norm_num

/-- The cube of `-2` has a value. `(-1) ^ 2147483648` is refused as a power with a fraction would be,
and `0 ^ (-0.5)` is what the floating-point power makes of it. -/
theorem powers_of_negative_numbers_and_zero :
    let cube : Expr := .binary .pow (.neg (.number 2)) (.number 3)
    let large : Expr := .binary .pow (.neg (.number 1)) (.number 2147483648)
    let root : Expr := .binary .pow (.number 0) (.neg (.number 0.5))
    (cube.eval 0 = .ok (-8) ∧ PowerGives 0 (-2) 3 (cube.eval 0)) ∧
    (large.eval 0 = .error (.domain "^" (-1) 0) ∧ IsInteger 2147483648 ∧
      ¬ PowerGives 0 (-1) 2147483648 (large.eval 0)) ∧
    root.eval 0 = finite 0 (Float.pow 0 (-0.5)) := by
  intro cube large root
  refine ⟨?_, ?_, ?_⟩
  · have hsmall : smallPower? 3 = some 3 := by decide +kernel
    have hrat := (smallPower?_eq_some (by decide +kernel)).1 hsmall
    obtain ⟨hgives, -, -⟩ := power_gives_iff (.neg (.number 2)) (.number 3) 0 (-2) 3
      (toOption_eq_some.1 (by decide +kernel)) (toOption_eq_some.1 (by decide +kernel))
    exact ⟨toOption_eq_some.1 (by decide +kernel),
      (hgives (by simp [hsmall])).2 ⟨fun _ _ => hrat.2, fun _ _ => ⟨⟨3, hrat.1⟩, hrat.2⟩⟩⟩
  · obtain ⟨hinteger, hlarge⟩ := isInteger_and_not_small
    have hneg : (-1 : Float) < 0 := by decide +kernel
    obtain ⟨hgives, hdomain, -⟩ :=
      power_gives_iff (.neg (.number 1)) (.number 2147483648) 0 (-1) 2147483648
        (toOption_eq_some.1 (by decide +kernel)) (toOption_eq_some.1 (by decide +kernel))
    refine ⟨hdomain hneg hinteger hlarge, hinteger, fun h => ?_⟩
    obtain ⟨hsmall, -⟩ := (hgives fun _ hpos => absurd hneg hpos).1 h
    exact hlarge (hsmall hneg hinteger)
  · have hnone : smallPower? (-0.5) = none := by decide +kernel
    obtain ⟨-, -, hzero⟩ := power_gives_iff (.number 0) (.neg (.number 0.5)) 0 0 (-0.5)
      (toOption_eq_some.1 (by decide +kernel)) (toOption_eq_some.1 (by decide +kernel))
    exact hzero (by decide +kernel) (by decide +kernel)
      ((smallPower?_eq_none (by decide +kernel)).1 hnone)

/-- `(-1) ^ 2147483648` is refused, though the exponent is an integer, and `0 ^ (-0.5)` is not seen
to be a division by zero. -/
theorem large_and_fractional_exponents :
    let t : Expr := .binary .pow (.neg (.number 1)) (.number 2147483648)
    let s : Expr := .binary .pow (.number 0) (.neg (.number 0.5))
    (t.eval 0 = .error (.domain "^" (-1) 0) ∧ IsInteger 2147483648 ∧
      ¬ PowerGives 0 (-1) 2147483648 (t.eval 0)) ∧
    (0 : Float) == 0 ∧ (-0.5 : Float) < 0 ∧ ¬ PowerGives 0 0 (-0.5) (s.eval 0) := by
  intro t s
  have ht : t.eval 0 = .error (.domain "^" (-1) 0) := error?_eq_some.1 (by decide +kernel)
  obtain ⟨hinteger, -⟩ := isInteger_and_not_small
  have hs : s.eval 0 = finite 0 (Float.pow 0 (-0.5)) := by
    rw [Expr.eval_pow (a := 0) (b := -0.5) (toOption_eq_some.1 (by decide +kernel))
      (toOption_eq_some.1 (by decide +kernel)), power_of_not_negative (by decide +kernel)
      (by decide +kernel), ok_bind]
  refine ⟨⟨ht, hinteger, fun h => ?_⟩, by decide +kernel, by decide +kernel, fun h => ?_⟩
  · rw [ht] at h
    cases h with
    | domain _ hfraction => exact hfraction hinteger
  · have hdivision := h.eq_of_zero (by decide +kernel) (by decide +kernel) (by decide +kernel)
    rw [hs] at hdivision
    obtain ⟨-, h⟩ := finite_eq_error.1 hdivision
    cases h

end RealRoots
