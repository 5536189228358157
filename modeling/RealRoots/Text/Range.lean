/-!
# Character classes as ranges

A character class is a list of closed ranges of code points.
-/

namespace RealRoots.Text

/-- Is the character in one of the closed ranges of code points? -/
def inRanges (ranges : List (Nat × Nat)) (c : Char) : Bool :=
  ranges.any fun range => range.1 ≤ c.toNat && c.toNat ≤ range.2

/-- The decimal digits `0` to `9`, and no others. -/
def isDigit (c : Char) : Bool :=
  inRanges [(0x30, 0x39)] c

/-- The value of a digit. -/
def digitValue (c : Char) : Nat :=
  c.toNat - 0x30

/-- The number that digits of base `base` spell, most significant first, each read by `value`. -/
def valueInBase (base : Nat) (value : Char → Nat) (digits : List Char) : Nat :=
  digits.foldl (fun n c => base * n + value c) 0

/-- The number that decimal digits spell. -/
def natOfDigits (digits : List Char) : Nat :=
  valueInBase 10 digitValue digits

/-- The value of a digit of base 16, in either case. -/
def hexValue? (c : Char) : Option Nat :=
  if isDigit c then some (digitValue c)
  else if inRanges [(0x61, 0x66)] c then some (c.toNat - 0x61 + 10)
  else if inRanges [(0x41, 0x46)] c then some (c.toNat - 0x41 + 10)
  else none

end RealRoots.Text
