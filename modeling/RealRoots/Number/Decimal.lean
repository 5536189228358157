import RealRoots.Number.Binary
import RealRoots.Text.Range

/-!
# Decimal numbers

A decimal is a natural number of digits and a power of ten. The digits of a double are the shortest
that read back to it.

* `Decimal.toFloat`: the nearest double, an exact tie going to the even mantissa.
* `Decimal.shortest`: of the decimals that read back to a given size, one with the fewest digits,
  and of two such neighbours of the size the nearer one. A `Halfway` settles a tie.
* `toFloat_shortest`: reading the shortest digits gives the size back, as long as its exact
  expansion does.
-/

namespace RealRoots

/-- The number `digits * 10 ^ exponent`. -/
structure Decimal where
  digits : Nat
  exponent : Int
  deriving DecidableEq, Repr

namespace Decimal

/-- The nearest double. Beyond the largest double it is infinite. -/
def toFloat (d : Decimal) : Float :=
  .ofModel (.ofScientific d.digits d.exponent)

/-- Does the decimal read back to the size? -/
def readsAs (size : Dyadic) (d : Decimal) : Bool :=
  Shape.of d.toFloat = .finite false size

/-- The decimal of at most `count` digits that is `digits * 10 ^ exponent`, where `digits` may be
`10 ^ count`, which is one digit too many. -/
def carried (count digits : Nat) (exponent : Int) : Decimal :=
  if digits = Nat.pow 10 count then ⟨digits / 10, exponent + 1⟩ else ⟨digits, exponent⟩

/-- Which of two equally near neighbours is preferred. -/
inductive Halfway where
  /-- The larger one. -/
  | up
  /-- The one whose last digit is even. -/
  | even
  deriving DecidableEq, Repr

/-- Does a size halfway between `digits` and `digits + 1` go to `digits`? -/
def Halfway.isDown (halfway : Halfway) (digits : Nat) : Bool :=
  match halfway with
  | .up => false
  | .even => digits % 2 = 0

/-- The two neighbours of `size` among the decimals of `count` digits, the nearer one first. -/
def neighbours (halfway : Halfway) (size : Dyadic) (count : Nat) : List Decimal :=
  let exponent := size.decade + 1 - count
  let (numerator, denominator) := size.ratio exponent
  let digits := numerator / denominator
  let rest := 2 * (numerator % denominator)
  let below := carried count digits exponent
  let above := carried count (digits + 1) exponent
  if rest < denominator ∨ rest = denominator ∧ halfway.isDown digits then [below, above]
  else [above, below]

/-- Every digit of a size: `m * 2 ^ -k` is `m * 5 ^ k * 10 ^ -k`. -/
def exact (size : Dyadic) : Decimal :=
  ⟨size.mantissa * Nat.pow 2 size.exponent.toNat * Nat.pow 5 (-size.exponent).toNat,
    min size.exponent 0⟩

/-- The most digits a double needs. -/
def maxDigits : Nat := 17

/-- A decimal with the fewest digits that reads back to the size. -/
def shortest (halfway : Halfway) (size : Dyadic) : Decimal :=
  if size.mantissa = 0 then ⟨0, 0⟩ else
    ((List.range maxDigits).findSome? fun n =>
      (neighbours halfway size (n + 1)).find? (readsAs size)).getD (exact size)

/-- **The shortest digits read back**, where all the digits do. -/
theorem toFloat_shortest (halfway : Halfway) {size : Dyadic} (hpos : size.mantissa ≠ 0)
    (hexact : readsAs size (exact size)) : readsAs size (shortest halfway size) := by
  rw [shortest, if_neg hpos]
  cases hfound : (List.range maxDigits).findSome? fun n =>
      (neighbours halfway size (n + 1)).find? (readsAs size) with
  | none => exact hexact
  | some d =>
    obtain ⟨n, -, hn⟩ := List.exists_of_findSome?_eq_some hfound
    exact List.find?_some hn

/-- The decimal that digits before and after a point spell, times a power of ten. -/
def ofParts (whole fraction : List Char) (exponent : Int) : Decimal :=
  ⟨Text.natOfDigits (whole ++ fraction), exponent - fraction.length⟩

end Decimal

end RealRoots
