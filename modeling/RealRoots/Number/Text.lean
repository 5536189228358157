import RealRoots.Number.Rounded

/-!
# The texts of a double

Messages and tables write a double in four ways. A sign comes first, also for a negative zero;
infinities are `inf` and a NaN is `NaN`. Shortest digits go up on a tie, rounded ones to even.

* `plain`: the shortest digits, never with an exponent.
* `scientific`: the shortest digits, one before the point and always an exponent.
* `fixed`: rounded to a number of places.
* `scientificFixed`: rounded to a number of places after the first digit.
-/

namespace RealRoots

namespace Decimal

/-- The digits, most significant first. -/
def digitChars (d : Decimal) : List Char :=
  Nat.toDigits 10 d.digits

/-- Digits with a point before the last `places` of them, and a zero before a leading point. -/
def withPoint (digits : List Char) (places : Nat) : List Char :=
  let padded := List.replicate (places + 1 - digits.length) '0' ++ digits
  let whole := padded.take (padded.length - places)
  whole ++ '.' :: padded.drop (padded.length - places)

/-- The decimal written out, without an exponent: `1200`, `0.05`. -/
def positional (d : Decimal) : List Char :=
  match d.exponent with
  | .ofNat zeros => d.digitChars ++ if d.digits = 0 then [] else List.replicate zeros '0'
  | .negSucc n => withPoint d.digitChars (n + 1)

/-- One digit before the point, the others after it, and the exponent after `e`: `1.25e-3`. -/
def scientific (d : Decimal) : List Char :=
  let exponent := (toString (d.exponent + d.digitChars.length - 1)).toList
  match d.digitChars with
  | [] => exponent
  | [first] => first :: 'e' :: exponent
  | first :: others => first :: '.' :: others ++ 'e' :: exponent

end Decimal

/-- The text of a double whose size is laid out by `layout`. -/
def signedText (layout : Dyadic → List Char) (x : Float) : String :=
  let sign (negative : Bool) (text : List Char) := if negative then '-' :: text else text
  match Shape.of x with
  | .nan => "NaN"
  | .infinite negative => String.ofList (sign negative ['i', 'n', 'f'])
  | .finite negative size => String.ofList (sign negative (layout size))

/-- The shortest digits without an exponent: `3`, `-0`, `0.0000001`. -/
def plain : Float → String :=
  signedText fun size => (Decimal.shortest .up size).positional

/-- The shortest digits with an exponent: `1e-12`, `-3.5e2`, `0e0`. -/
def scientific : Float → String :=
  signedText fun size => (Decimal.shortest .up size).scientific

/-- Rounded to `places` digits after the point: `2.1667` for four places. -/
def fixed (places : Nat) : Float → String :=
  signedText fun size => (size.toPlaces places).positional

/-- Rounded to `places` digits after the first one: `5.00000000e-1` for eight places. -/
def scientificFixed (places : Nat) : Float → String :=
  signedText fun size =>
    if size.mantissa = 0 then '0' :: '.' :: List.replicate places '0' ++ ['e', '0']
    else (size.toDigits (places + 1)).scientific

/-- The text with blanks before it, up to a width in characters. -/
def padLeft (width : Nat) (text : String) : String :=
  String.ofList (List.replicate (width - text.length) ' ') ++ text

/-- The text with blanks after it, up to a width in characters. -/
def padRight (width : Nat) (text : String) : String :=
  text ++ String.ofList (List.replicate (width - text.length) ' ')

end RealRoots
