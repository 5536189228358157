/-!
# Doubles, taken apart

A double is a NaN, an infinity, or a sign and a size `mantissa * 2 ^ exponent`. Everything that is
said exactly of a double (its digits, whether it is an integer) is said of that size.

* `Shape.of`: the parts of a double.
* `Dyadic.ratio`: the size over a power of ten, as a fraction of natural numbers.
* `whole?`: the integer a double is, when it is one.
-/

namespace RealRoots

/-- The number `mantissa * 2 ^ exponent`. -/
structure Dyadic where
  mantissa : Nat
  exponent : Int
  deriving DecidableEq, Repr

namespace Dyadic

/-- Numerator and denominator of `d / 10 ^ k`. -/
def ratio (d : Dyadic) (k : Int) : Nat × Nat :=
  (d.mantissa * Nat.pow 2 d.exponent.toNat * Nat.pow 10 (-k).toNat,
    Nat.pow 2 (-d.exponent).toNat * Nat.pow 10 k.toNat)

/-- The natural number `d` is, when it is one. -/
def nat? (d : Dyadic) : Option Nat :=
  let (numerator, denominator) := d.ratio 0
  if numerator % denominator = 0 then some (numerator / denominator) else none

/-- The greatest `k` with `10 ^ k ≤ d`, for a `d` above zero. The binary logarithm times
`log10 2 ≈ 0.30103` is right or one too small. -/
def decade (d : Dyadic) : Int :=
  let guess := (((d.mantissa.log2 : Int) + d.exponent) * 30103) / 100000
  let (numerator, denominator) := d.ratio (guess + 1)
  if denominator ≤ numerator then guess + 1 else guess

end Dyadic

/-- What a double is. Zero is finite, with mantissa zero, and has a sign. -/
inductive Shape where
  | nan
  | infinite (negative : Bool)
  | finite (negative : Bool) (size : Dyadic)
  deriving DecidableEq, Repr

namespace Shape

private def isNegative : Float.Model.UnpackedFloat.Sign → Bool
  | .positive => false
  | .negative => true

/-- The parts of a double. -/
def of (x : Float) : Shape :=
  match x.toModel.unpack with
  | .notANumber => nan
  | .infinity sign => infinite (isNegative sign)
  | .zero sign => finite (isNegative sign) ⟨0, 0⟩
  | .finite sign mantissa exponent _ => finite (isNegative sign) ⟨mantissa, exponent⟩

end Shape

/-- The integer a double is, when it is one. Both zeros are the integer zero. -/
def whole? (x : Float) : Option Int :=
  match Shape.of x with
  | .finite negative size => size.nat?.map fun n => if negative then -(n : Int) else n
  | _ => none

end RealRoots
