import RealRoots.Number.Decimal
import RealRoots.Proofs.Number.Rounding

/-!
# Doubles are read back from their digits

A finite double is a dyadic fraction, so finitely many decimal digits are all of it, and reading
these is one exact rounding. The shortest digits then read back too: that is how they are chosen.

* `ofScientific_exact`: all the digits of a double are read as the double.
* `Decimal.signed_toFloat_shortest`: so are its sign and its shortest digits.
* `Decimal.toFloat_whole`: a whole number may be spelled with a zero after its point.
-/

namespace RealRoots

open Float.Model Float.Model.UnpackedFloat

/-! ## Decimals that are rounded once -/

theorem targetExponent_eq (t : Int) : Format.binary64.targetExponent t = max (t - 53) (-1074) :=
  rfl

/-- A decimal that is an integer is rounded once. -/
theorem ofScientific_of_nonneg {n : Nat} (k : Nat) (hn : n ≠ 0) (hk : k ≤ 2048) :
    UnpackedFloat.ofScientific Format.binary64 n k =
      roundWithAccuracy Format.binary64 .positive (n * 10 ^ k * 2 ^ 53) (-53) .exact := by
  have hlarge : ¬ (k : Int) > 2 ^ Format.binary64.exponentBits := by
    change ¬ (k : Int) > 2 ^ 11
    omega
  have hsmall : ¬ (k : Int) < -(2 ^ Format.binary64.exponentBits + n.log2) := by
    change ¬ (k : Int) < -(2 ^ 11 + n.log2)
    omega
  rw [UnpackedFloat.ofScientific, dif_neg hn, if_neg hlarge, if_neg hsmall,
    if_pos (Int.natCast_nonneg k)]
  change roundWithAccuracy Format.binary64 .positive (n <<< 53 * 10 ^ k) (-53) .exact = _
  rw [Nat.shiftLeft_eq, Nat.mul_right_comm]

/-- A quotient by a power of ten that leaves nothing over is rounded once. The shift `a` is the one
that the division makes. -/
theorem ofScientific_of_neg {n k a q : Nat} (hn : n ≠ 0) (hpos : 0 < k) (hk : k ≤ 2048)
    (ha : min 0 (max ((n.log2 : Int) - (10 ^ k).log2 - 53) (-1074)) = -a)
    (hq : n * 2 ^ a = q * 10 ^ k) :
    UnpackedFloat.ofScientific Format.binary64 n (-k) =
      roundWithAccuracy Format.binary64 .positive q (-a) .exact := by
  have hlarge : ¬ (-k : Int) > 2 ^ Format.binary64.exponentBits := by
    change ¬ (-k : Int) > 2 ^ 11
    omega
  have hsmall : ¬ (-k : Int) < -(2 ^ Format.binary64.exponentBits + n.log2) := by
    change ¬ (-k : Int) < -(2 ^ 11 + n.log2)
    omega
  have hten : 0 < 10 ^ k := by positivity
  have htarget : min (0 - 0) (Format.binary64.targetExponent
      (totalExponent n 0 - totalExponent (10 ^ k) 0)) = -(a : Int) := by
    rw [targetExponent_eq, totalExponent, totalExponent]
    omega
  have hcore : divCore Format.binary64 n 0 (10 ^ k) 0 = (q, -(a : Int), .exact) := by
    have hshift : (0 - 0 - -(a : Int)).toNat = a := by omega
    rw [divCore]
    simp only [htarget, hshift]
    rw [Nat.shiftLeft_eq, hq, Nat.mul_div_cancel _ hten, Nat.mul_mod_left]
    rfl
  rw [UnpackedFloat.ofScientific, dif_neg hn, if_neg hlarge, if_neg hsmall, if_neg (by omega)]
  simp only [Int.neg_neg, Int.toNat_natCast]
  rw [UnpackedFloat.div]
  simp only [hcore]
  rfl

/-- **All the digits of a double are rounded to the double.** -/
theorem ofScientific_exact {m : Nat} {e : Int} (h : IsCanonical m e) :
    UnpackedFloat.ofScientific Format.binary64 (Decimal.exact ⟨m, e⟩).digits
      (Decimal.exact ⟨m, e⟩).exponent = .finite .positive m e h.pos := by
  obtain ⟨hm, hgrid, hsmall⟩ := h
  rw [← round_self .positive hm hgrid]
  obtain ⟨k, rfl⟩ | ⟨k, hk, rfl⟩ : (∃ k : Nat, e = k) ∨ ∃ k : Nat, 0 < k ∧ e = -(k : Int) := by
    obtain h | h := Int.lt_or_le e 0
    · exact .inr ⟨(-e).toNat, by omega, by omega⟩
    · exact .inl ⟨e.toNat, by omega⟩
  · have hexact : Decimal.exact ⟨m, k⟩ = ⟨m * 2 ^ k, (0 : Nat)⟩ := by
      simp [Decimal.exact]
    have hne : m * 2 ^ k ≠ 0 := by positivity
    have hdigits : m * 2 ^ k * 10 ^ 0 * 2 ^ 53 = m * 2 ^ (k + 53) := by
      rw [Nat.pow_zero, Nat.mul_one, Nat.mul_assoc, Nat.pow_add]
    have hexponent : (k : Int) - (k + 53 : Nat) = -53 := by omega
    rw [hexact, ofScientific_of_nonneg 0 hne (by omega), ← round_mul .positive hm.ne' hgrid.ge
      (k + 53), hdigits, hexponent]
  · rw [gridExponent_eq] at hgrid
    have hexact : Decimal.exact ⟨m, -(k : Int)⟩ = ⟨m * 5 ^ k, -(k : Int)⟩ := by
      simp [Decimal.exact]
    have hne : m * 5 ^ k ≠ 0 := by positivity
    have hten : (10 ^ k).log2 = (5 ^ k).log2 + k := by
      rw [← log2_mul_two_pow (by positivity), ← Nat.mul_pow]
    have hlog := log2_mul_le hm.ne' (show 5 ^ k ≠ 0 by positivity)
    obtain ⟨b, hb⟩ : ∃ b : Nat,
        min 0 (max (((m * 5 ^ k).log2 : Int) - (10 ^ k).log2 - 53) (-1074)) = -(k + b : Nat) :=
      ⟨(-min 0 (max (((m * 5 ^ k).log2 : Int) - (10 ^ k).log2 - 53) (-1074)) - k).toNat, by omega⟩
    have hq : m * 5 ^ k * 2 ^ (k + b) = m * 2 ^ b * 10 ^ k := by
      rw [Nat.pow_add, show 10 = 5 * 2 from rfl, Nat.mul_pow]
      ring
    have hexponent : (-k : Int) - b = -(k + b : Nat) := by omega
    rw [hexact, ofScientific_of_neg hne hk (by omega) hb hq, ← round_mul .positive hm.ne'
      (by rw [gridExponent_eq]; omega) b, hexponent]

/-- A whole number below `10 ^ 16`, written in tenths, is rounded as it is. -/
theorem ofScientific_tenth {n : Nat} (hn : n ≠ 0) (h : n < 10 ^ 16) :
    UnpackedFloat.ofScientific Format.binary64 (n * 10 ^ 1) (-(1 : Nat)) =
      roundWithAccuracy Format.binary64 .positive (n * 2 ^ 53) (-53) .exact := by
  have hten : (10 ^ 1).log2 = 3 := by decide
  have hlog : (n * 10 ^ 1).log2 ≤ n.log2 + 4 := by
    have := log2_mul_le hn (show 10 ^ 1 ≠ 0 by decide)
    omega
  have hlarge : (n * 10 ^ 1).log2 < 57 := by
    rw [Nat.log2_lt (by omega)]
    omega
  have hsmall : 3 ≤ (n * 10 ^ 1).log2 := by
    rw [Nat.le_log2 (by omega)]
    omega
  obtain ⟨a, ha⟩ : ∃ a : Nat, (n * 10 ^ 1).log2 + a = 56 :=
    ⟨56 - (n * 10 ^ 1).log2, by omega⟩
  have hshift : min 0 (max (((n * 10 ^ 1).log2 : Int) - (10 ^ 1).log2 - 53) (-1074)) = -a := by
    rw [hten]
    omega
  have hsame : n * 2 ^ 53 = n * 2 ^ a * 2 ^ (53 - a) := by
    rw [Nat.mul_assoc, ← Nat.pow_add, Nat.add_sub_cancel' (by omega)]
  have hexponent : (-53 : Int) = -a - (53 - a : Nat) := by omega
  have hround : (-a : Int) ≤ gridExponent (n * 2 ^ a) (-a) := by
    rw [gridExponent_eq, log2_mul_two_pow hn]
    omega
  rw [ofScientific_of_neg (by omega) Nat.one_pos (by decide) hshift (Nat.mul_right_comm ..), hsame,
    hexponent, round_mul .positive (by positivity) hround]

/-! ## The shortest digits -/

theorem Shape.of_finite {x : Float} {s : Sign} {m : Nat} {e : Int} {hm : 0 < m}
    (h : x.toModel.unpack = .finite s m e hm) :
    Shape.of x = .finite (s == .negative) ⟨m, e⟩ := by
  rw [Shape.of, h]
  cases s <;> rfl

theorem Shape.of_zero {x : Float} {s : Sign} (h : x.toModel.unpack = .zero s) :
    Shape.of x = .finite (s == .negative) ⟨0, 0⟩ := by
  rw [Shape.of, h]
  cases s <;> rfl

theorem Shape.of_eq_finite {x : Float} (h : x.isFinite) :
    ∃ negative size, Shape.of x = .finite negative size := by
  obtain ⟨s, hx⟩ | ⟨s, m, e, hm, hx⟩ := isFinite_iff.1 h
  · exact ⟨_, _, Shape.of_zero hx⟩
  · exact ⟨_, _, Shape.of_finite hx⟩

/-- The parts of a double with a given sign and size. -/
theorem Shape.unpack_of_eq {x : Float} {negative : Bool} {size : Dyadic}
    (h : Shape.of x = .finite negative size) :
    (∃ s, x.toModel.unpack = .zero s ∧ (s == .negative) = negative ∧ size = ⟨0, 0⟩) ∨
      ∃ s hm, x.toModel.unpack = .finite s size.mantissa size.exponent hm ∧
        (s == .negative) = negative := by
  cases hx : x.toModel.unpack with
  | notANumber | infinity s =>
    rw [Shape.of, hx] at h
    cases h
  | zero s =>
    rw [Shape.of_zero hx] at h
    injection h with hsign hsize
    exact .inl ⟨s, rfl, hsign, hsize.symm⟩
  | finite s m e hm =>
    rw [Shape.of_finite hx] at h
    injection h with hsign hsize
    subst hsize
    exact .inr ⟨s, hm, rfl, hsign⟩

theorem Shape.isFinite_of_eq {x : Float} {negative : Bool} {size : Dyadic}
    (h : Shape.of x = .finite negative size) : x.isFinite := by
  rw [isFinite_iff]
  obtain ⟨s, hzero, -⟩ | ⟨s, hpos, hfinite, -⟩ := Shape.unpack_of_eq h
  · exact .inl ⟨s, hzero⟩
  · exact .inr ⟨s, _, _, hpos, hfinite⟩

theorem unpack_neg (x : Float) :
    (-x).toModel.unpack = (Float.Model.pack x.toModel.unpack.neg).unpack :=
  rfl

namespace Decimal

theorem unpack_toFloat (d : Decimal) : d.toFloat.toModel.unpack = (Float.Model.pack
    (UnpackedFloat.ofScientific Format.binary64 d.digits d.exponent)).unpack :=
  rfl

theorem unpack_toFloat_zero {d : Decimal} (h : d.digits = 0) :
    d.toFloat.toModel.unpack = .zero .positive := by
  rw [unpack_toFloat, UnpackedFloat.ofScientific, dif_pos h, unpack_pack_zero]

theorem readsAs_exact {m : Nat} {e : Int} (h : IsCanonical m e) :
    readsAs ⟨m, e⟩ (exact ⟨m, e⟩) := by
  have hunpack : (exact ⟨m, e⟩).toFloat.toModel.unpack = .finite .positive m e h.pos := by
    rw [unpack_toFloat, ofScientific_exact h, unpack_pack_finite .positive h]
  rw [readsAs, Shape.of_finite hunpack]
  exact decide_eq_true rfl

/-- Only zero has the digit zero. -/
theorem digits_shortest (halfway : Halfway) {size : Dyadic} (h : size.mantissa ≠ 0) :
    (shortest halfway size).digits ≠ 0 := by
  rw [shortest, if_neg h]
  cases hfound : (List.range maxDigits).findSome? fun n =>
      (neighbours halfway size (n + 1)).find? (readsAs size) with
  | none =>
    simp [exact, h]
  | some d =>
    obtain ⟨n, -, hn⟩ := List.exists_of_findSome?_eq_some hfound
    intro hzero
    have hread := List.find?_some hn
    rw [Option.getD_some] at hzero
    rw [readsAs, Shape.of_zero (unpack_toFloat_zero hzero), decide_eq_true_iff] at hread
    injection hread with _ hsize
    exact h (congrArg Dyadic.mantissa hsize).symm

theorem exponent_shortest {halfway : Halfway} {size : Dyadic}
    (h : (shortest halfway size).digits = 0) : (shortest halfway size).exponent = 0 := by
  by_cases hm : size.mantissa = 0
  · rw [shortest, if_pos hm]
  · exact absurd h (digits_shortest halfway hm)

/-- **The shortest digits and the sign of a double are read back as the double.** -/
theorem signed_toFloat_shortest {x : Float} {negative : Bool} {size : Dyadic}
    (h : Shape.of x = .finite negative size) (halfway : Halfway) :
    (if negative then -(shortest halfway size).toFloat else (shortest halfway size).toFloat) =
      x := by
  apply eq_of_unpack_eq
  obtain ⟨s, hx, rfl, rfl⟩ | ⟨s, hm, hx, rfl⟩ := Shape.unpack_of_eq h
  · have hzero : (shortest halfway ⟨0, 0⟩).toFloat.toModel.unpack = .zero .positive :=
      unpack_toFloat_zero rfl
    rw [hx]
    cases s with
    | positive => exact hzero
    | negative =>
      change (-(shortest halfway ⟨0, 0⟩).toFloat).toModel.unpack = _
      rw [unpack_neg, hzero]
      exact unpack_pack_zero .negative
  · have hcanonical : IsCanonical size.mantissa size.exponent := isCanonical_of_unpack hx
    have hread := toFloat_shortest halfway hm.ne' (readsAs_exact hcanonical)
    rw [readsAs, decide_eq_true_iff] at hread
    obtain ⟨s', _, _, hsize⟩ | ⟨s', hm', hshortest, hsign⟩ := Shape.unpack_of_eq hread
    · exact absurd (congrArg Dyadic.mantissa hsize) hm.ne'
    · rw [hx]
      cases s' with
      | negative => cases hsign
      | positive =>
        cases s with
        | positive => exact hshortest
        | negative =>
          change (-(shortest halfway size).toFloat).toModel.unpack = _
          rw [unpack_neg, hshortest]
          exact unpack_pack_finite .negative hcanonical

/-- A whole number below `10 ^ 16` is the same double with a zero after its point. -/
theorem toFloat_whole {digits zeros : Nat} (h : digits * 10 ^ zeros < 10 ^ 16) :
    toFloat ⟨10 ^ (zeros + 1) * digits, -1⟩ = toFloat ⟨digits, zeros⟩ := by
  apply eq_of_unpack_eq
  by_cases hdigits : digits = 0
  · subst hdigits
    rw [unpack_toFloat_zero rfl, unpack_toFloat_zero rfl]
  have hzeros : zeros < 16 := by
    rw [← Nat.pow_lt_pow_iff_right (show 1 < 10 by decide)]
    exact (Nat.le_mul_of_pos_left _ (Nat.pos_of_ne_zero hdigits)).trans_lt h
  have htenth : 10 ^ (zeros + 1) * digits = digits * 10 ^ zeros * 10 ^ 1 := by ring
  rw [unpack_toFloat, unpack_toFloat, ofScientific_of_nonneg zeros hdigits (by omega),
    ← ofScientific_tenth (by positivity) h, htenth]
  rfl

end Decimal

end RealRoots
