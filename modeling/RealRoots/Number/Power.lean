/-!
# Powers by repeated squaring

An integer power is a product of squares, taken in the order of the exponent's binary digits from
the lowest, so that every rounding is fixed.
-/

namespace RealRoots

/-- `product * base ^ n`, reading the binary digits of `n` from the lowest. -/
def powNat (product base : Float) (n : Nat) : Float :=
  let product := if n % 2 = 1 then product * base else product
  if n / 2 = 0 then product else powNat product (base * base) (n / 2)
termination_by n

/-- `base ^ n`. A negative power is the reciprocal of the positive one. -/
def powInt (base : Float) (n : Int) : Float :=
  let power := powNat 1 base n.natAbs
  if n < 0 then 1 / power else power

end RealRoots
