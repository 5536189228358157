import RealRoots.Number.Decimal

/-!
# Rounding to a number of digits

A size is rounded exactly to a multiple of a power of ten; a tie goes to the even multiple.

* `Dyadic.toPlaces`: so many digits after the point.
* `Dyadic.toDigits`: so many digits in all.
* `roundDiv_near`: the rounded quotient is within half a unit.
-/

namespace RealRoots

/-- The integer nearest to `numerator / denominator`; a tie goes to the even one. -/
def roundDiv (numerator denominator : Nat) : Nat :=
  let quotient := numerator / denominator
  let rest := numerator % denominator
  if 2 * rest < denominator then quotient
  else if denominator < 2 * rest then quotient + 1
  else quotient + quotient % 2

/-- **Rounding moves by at most half a unit.** -/
theorem roundDiv_near (n : Nat) {d : Nat} (hd : 0 < d) :
    2 * (roundDiv n d * d) ≤ 2 * n + d ∧ 2 * n ≤ 2 * (roundDiv n d * d) + d := by
  have hn := Nat.div_add_mod n d
  have hlt := Nat.mod_lt n hd
  rw [Nat.mul_comm] at hn
  simp only [roundDiv]
  split
  · omega
  · split
    · rw [Nat.add_mul]; omega
    · rcases Nat.mod_two_eq_zero_or_one (n / d) with h | h <;> rw [h, Nat.add_mul] <;> omega

namespace Dyadic

/-- The size rounded to `places` digits after the point. -/
def toPlaces (size : Dyadic) (places : Nat) : Decimal :=
  let (numerator, denominator) := size.ratio (-(places : Int))
  ⟨roundDiv numerator denominator, -(places : Int)⟩

/-- The size rounded to `count` digits in all. -/
def toDigits (size : Dyadic) (count : Nat) : Decimal :=
  let exponent := size.decade + 1 - count
  let (numerator, denominator) := size.ratio exponent
  .carried count (roundDiv numerator denominator) exponent

end Dyadic

end RealRoots
