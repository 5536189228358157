import RealRoots.Proofs.Number.Arithmetic
import RealRoots.Proofs.Number.Distance

/-!
# Zeros

What stays zero in arithmetic on doubles, of whichever sign: sums and differences of zeros, a zero
times a finite double, and a zero over anything but a zero. A finite double less itself is a zero,
and less a zero it is itself, but for the sign of a zero (`IsZero.step`).
-/

namespace RealRoots

open Float.Model Float.Model.UnpackedFloat

/-- A zero of either sign. -/
def IsZero (x : Float) : Prop :=
  ∃ s, x.toModel.unpack = .zero s

variable {x y : Float}

theorem isZero_zero : IsZero 0 :=
  ⟨.positive, rfl⟩

theorem isZero_iff : IsZero x ↔ x == 0 := by
  have hzero : (0 : Float).toModel.unpack = .zero .positive := rfl
  rw [beq_iff, beq_iff_rank, hzero]
  constructor
  · rintro ⟨s, hx⟩
    exact ⟨0, by rw [hx]; rfl, rfl⟩
  · rintro ⟨a, hx, ha⟩
    cases hu : x.toModel.unpack with
    | zero s => exact ⟨s, hu⟩
    | notANumber =>
      rw [hu] at hx
      cases hx
    | infinity s | finite s =>
      rw [hu, ← ha] at hx
      cases s <;> simp [rank?] at hx

namespace IsZero

theorem isFinite (hx : IsZero x) : x.isFinite :=
  isFinite_iff.2 (.inl hx)

theorem abs (hx : IsZero x) : x.abs = 0 :=
  abs_of_zero hx.choose_spec

theorem neg (hx : IsZero x) : IsZero (-x) := by
  obtain ⟨s, hs⟩ := hx
  exact ⟨-s, by rw [unpack_neg_of_isFinite (isFinite_iff.2 (.inl ⟨s, hs⟩)), hs]; rfl⟩

theorem sub (hx : IsZero x) (hy : IsZero y) : IsZero (x - y) := by
  obtain ⟨s, hs⟩ := hx
  obtain ⟨t, ht⟩ := hy
  obtain ⟨r, hr⟩ := sub_zeros s t
  exact ⟨r, by rw [sub_unpack, hs, ht, hr, unpack_pack_zero]⟩

theorem add (hx : IsZero x) (hy : IsZero y) : IsZero (x + y) := by
  obtain ⟨s, hs⟩ := hx
  obtain ⟨t, ht⟩ := hy
  have hsum := add_unpack x y
  rw [hs, ht] at hsum
  cases s <;> cases t <;> exact ⟨_, hsum⟩

theorem mul (hx : x.isFinite) (hy : IsZero y) : IsZero (x * y) := by
  obtain ⟨t, ht⟩ := hy
  have hproduct := mul_unpack x y
  obtain ⟨s, hs⟩ | ⟨s, m, e, hm, hs⟩ := isFinite_iff.1 hx <;>
    exact ⟨s * t, by rw [hproduct, hs, ht]; exact unpack_pack_zero _⟩

theorem mul_finite (hx : IsZero x) (hy : y.isFinite) : IsZero (x * y) := by
  obtain ⟨s, hs⟩ := hx
  have hproduct := mul_unpack x y
  obtain ⟨t, ht⟩ | ⟨t, m, e, hm, ht⟩ := isFinite_iff.1 hy <;>
    exact ⟨s * t, by rw [hproduct, hs, ht]; exact unpack_pack_zero _⟩

/-- A zero over an infinity is one, too. -/
theorem div (hx : IsZero x) (hy : ¬ IsZero y) (hnumber : ¬ y.isNaN) : IsZero (x / y) := by
  obtain ⟨s, hs⟩ := hx
  have hquotient := div_unpack x y
  rw [hs] at hquotient
  change ¬ y.toModel.unpack.isNaN at hnumber
  cases hv : y.toModel.unpack with
  | notANumber =>
    rw [hv] at hnumber
    exact absurd rfl hnumber
  | zero t => exact absurd ⟨t, hv⟩ hy
  | infinity t | finite t =>
    rw [hv] at hquotient
    exact ⟨s / t, hquotient.trans (unpack_pack_zero _)⟩

theorem sub_eq_self (hy : IsZero y) (hx : x.isFinite) (hzero : ¬ IsZero x) : x - y = x := by
  obtain ⟨t, ht⟩ := hy
  obtain hs | ⟨s, m, e, hm, hs⟩ := isFinite_iff.1 hx
  · exact absurd hs hzero
  · exact sub_zero_of_finite hs ht

/-- **A step of a zero goes nowhere**, and keeps what is finite so. -/
theorem step (hy : IsZero y) (hx : x.isFinite) :
    (x - y).isFinite ∧ x - y == x ∧ (x - y - x).abs = 0 := by
  have hfinite : (x - y).isFinite := by
    by_cases hzero : IsZero x
    · exact (hzero.sub hy).isFinite
    · rwa [hy.sub_eq_self hx hzero]
  obtain ⟨t, ht⟩ := hy
  exact ⟨hfinite, sub_zero_step ht hfinite⟩

/-- The distance from a zero is the size. -/
theorem abs_sub (hy : IsZero y) (hx : x.isFinite) : (y - x).abs = x.abs := by
  rw [abs_sub_comm]
  by_cases hzero : IsZero x
  · rw [(hzero.sub hy).abs, hzero.abs]
  · rw [hy.sub_eq_self hx hzero]

end IsZero

theorem isZero_sub_self (hx : x.isFinite) : IsZero (x - x) := by
  obtain ⟨s, hs⟩ | ⟨s, m, e, hm, hs⟩ := isFinite_iff.1 hx
  · exact IsZero.sub ⟨s, hs⟩ ⟨s, hs⟩
  · exact ⟨.positive, by rw [sub_unpack, hs, sub_self, unpack_pack_zero]⟩

/-- Twice a positive double is positive, or infinite. -/
theorem two_mul_pos (hx : x.isFinite) (hpos : 0 < x) : ¬ IsZero (2 * x) ∧ ¬ (2 * x).isNaN := by
  have hrat : 0 < rat x := by
    rwa [lt_iff_rat_lt (by decide) hx, rat_zero] at hpos
  have hunpack : (2 : Float).toModel.unpack = .finite .positive (2 ^ 52) (-51) (by decide) := rfl
  have htwo : rat 2 = 2 := by
    rw [rat_of_finite hunpack, Sign.apply]
    norm_num
  have hle : x ≤ 2 * x := by
    refine (rounds_rat hx).le (rounds_mul (x := 2) (by decide) hx) ?_
    rw [htwo]
    linarith
  refine ⟨fun hzero => ?_, (not_isNaN_of_le hle).2⟩
  have hlt := lt_of_lt_of_le hpos hle
  rw [lt_iff_rat_lt (by decide) hzero.isFinite, rat_eq_of_beq (isZero_iff.1 hzero)] at hlt
  exact lt_irrefl _ hlt

end RealRoots
