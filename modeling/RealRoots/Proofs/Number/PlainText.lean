import Mathlib
import RealRoots.Proofs.Json.Numerals

/-!
# A double is read back from its text in a formula

Formulas are printed with the shortest digits of their numbers, without an exponent. A whole number
is then its digits and zeros, which are the same double as its digits with an exponent as long as
that double is finite.

* `Decimal.toFloat_zeros`: zeros may be written out.
* `plain_eq`: the text of a finite double without a sign is a literal that stands for it.
-/

namespace RealRoots

open Float.Model Float.Model.UnpackedFloat

namespace Decimal

/-- A decimal with too large an exponent is infinite. -/
theorem exponent_le_of_isFinite {digits zeros : Nat} (hne : digits ≠ 0)
    (h : (toFloat ⟨digits, zeros⟩).isFinite) : zeros ≤ 2048 := by
  by_contra hlarge
  have hinfinite :
      UnpackedFloat.ofScientific Format.binary64 digits zeros = .infinity .positive := by
    have hexponent : (zeros : Int) > 2 ^ Format.binary64.exponentBits := by
      change (zeros : Int) > 2 ^ 11
      omega
    rw [UnpackedFloat.ofScientific, dif_neg hne, if_pos hexponent]
  refine not_isFinite_iff.2 (.inr ⟨.positive, ?_⟩) h
  rw [unpack_toFloat, hinfinite, unpack_pack_infinity]

/-- **Zeros may be written out** where the number is not too large for a double. -/
theorem toFloat_zeros {digits zeros : Nat} (h : (toFloat ⟨digits, zeros⟩).isFinite) :
    toFloat ⟨10 ^ zeros * digits, 0⟩ = toFloat ⟨digits, zeros⟩ := by
  apply eq_of_unpack_eq
  by_cases hdigits : digits = 0
  · subst hdigits
    rw [unpack_toFloat_zero rfl, unpack_toFloat_zero rfl]
  · have hzeros := ofScientific_of_nonneg zeros hdigits (exponent_le_of_isFinite hdigits h)
    have hnone := ofScientific_of_nonneg 0 (show 10 ^ zeros * digits ≠ 0 by positivity) (by decide)
    rw [Nat.pow_zero, Nat.mul_one, Nat.mul_comm, ← hzeros, Nat.mul_comm] at hnone
    rw [unpack_toFloat, unpack_toFloat]
    exact congrArg (fun u => (Float.Model.pack u).unpack) hnone

/-- The shortest digits without an exponent are a literal for the same double. -/
theorem positional_eq (d : Decimal) (hzero : d.digits = 0 → d.exponent = 0)
    (h : d.toFloat.isFinite) :
    ∃ l : Literal, l.WellFormed ∧ d.positional = l.spelling ∧ l.toDecimal.toFloat = d.toFloat := by
  obtain ⟨digits, zeros | places⟩ := d
  · obtain ⟨whole, hpositional, hne, hdigit, -, hvalue⟩ := positional_whole digits zeros fun hd =>
      Int.ofNat_eq_zero.1 (hzero hd)
    refine ⟨⟨whole, none, none⟩, ⟨hdigit, by simp, by simp, by simp [Literal.hasDigits, hne]⟩,
      ?_, ?_⟩
    · simpa [Literal.spelling] using hpositional
    · have hdecimal : (⟨whole, none, none⟩ : Literal).toDecimal = ⟨10 ^ zeros * digits, 0⟩ := by
        simp [Literal.toDecimal, ofParts, hvalue]
      rw [hdecimal]
      exact toFloat_zeros h
  · obtain ⟨l, hl, hpositional, -, hvalue⟩ := positional_point fun hd : digits = 0 => by
      cases hzero hd
    exact ⟨l, hl.wellFormed, hpositional, congrArg toFloat hvalue⟩

end Decimal

/-- **The text of a finite double without a sign is a literal that stands for it.** -/
theorem plain_eq {value : Float} {size : Dyadic} (h : Shape.of value = .finite false size) :
    ∃ l : Literal, l.WellFormed ∧ (plain value).toList = l.spelling ∧
      l.toDecimal.toFloat = value := by
  have hvalue : (Decimal.shortest .up size).toFloat = value := Decimal.signed_toFloat_shortest h .up
  have hfinite : (Decimal.shortest .up size).toFloat.isFinite := by
    rw [hvalue]
    exact Shape.isFinite_of_eq h
  obtain ⟨l, hl, hpositional, hfloat⟩ :=
    (Decimal.shortest .up size).positional_eq Decimal.exponent_shortest hfinite
  refine ⟨l, hl, ?_, hfloat.trans hvalue⟩
  rw [plain, signedText]
  simp [h, hpositional]

end RealRoots
