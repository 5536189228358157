import RealRoots.Number.Decimal

/-!
# Numeric literals

A literal is digits, then perhaps a point and more digits, then perhaps an exponent. An exponent
counts only when digits follow its mark and sign, so `2e` is the literal `2` before an `e`.

* `Literal.scan`: the longest literal at the front of a text, and what follows it.
* `Literal.scan_spelling`: spelling and rest are the text.
* `readFloat?`: a whole text as a double, with a sign and names for infinity and NaN.
-/

namespace RealRoots

/-- The exponent part of a literal: `e-3`. -/
structure Exponent where
  mark : Char
  sign : Option Char
  digits : List Char

/-- An unsigned number as it is spelled. -/
structure Literal where
  whole : List Char
  fraction : Option (List Char)
  exponent : Option Exponent

namespace Exponent

def spelling (e : Exponent) : List Char :=
  e.mark :: e.sign.toList ++ e.digits

def value (e : Exponent) : Int :=
  let size : Int := Text.natOfDigits e.digits
  if e.sign = some '-' then -size else size

/-- The exponent at the front, if its mark has digits after it. -/
def scan (cs : List Char) : Option Exponent × List Char :=
  match cs with
  | mark :: rest =>
    let (sign, tail) :=
      match rest with
      | s :: tail => if s == '+' || s == '-' then (some s, tail) else (none, rest)
      | [] => (none, rest)
    let digits := tail.takeWhile Text.isDigit
    if (mark == 'e' || mark == 'E') && !digits.isEmpty then
      (some ⟨mark, sign, digits⟩, tail.dropWhile Text.isDigit)
    else (none, cs)
  | [] => (none, cs)

theorem scan_spelling (cs : List Char) :
    ((scan cs).1.map spelling).getD [] ++ (scan cs).2 = cs := by
  fun_cases scan cs with
  | case1 mark rest sign tail heq digits hdigits =>
    cases rest with
    | nil =>
      simp only [Prod.mk.injEq] at heq
      obtain ⟨rfl, rfl⟩ := heq
      simp [digits, spelling]
    | cons s rest =>
      simp only at heq
      split at heq <;> simp only [Prod.mk.injEq] at heq <;> obtain ⟨rfl, rfl⟩ := heq <;>
        simp [digits, spelling, List.takeWhile_append_dropWhile]
  | case2 => rfl
  | case3 => rfl

end Exponent

namespace Literal

def spelling (l : Literal) : List Char :=
  l.whole ++ (l.fraction.map ('.' :: ·)).getD [] ++ (l.exponent.map Exponent.spelling).getD []

/-- The number that the literal spells. -/
def toDecimal (l : Literal) : Decimal :=
  .ofParts l.whole (l.fraction.getD []) ((l.exponent.map Exponent.value).getD 0)

/-- The point at the front and the digits after it. -/
def scanFraction (cs : List Char) : Option (List Char) × List Char :=
  match cs with
  | '.' :: rest => (some (rest.takeWhile Text.isDigit), rest.dropWhile Text.isDigit)
  | _ => (none, cs)

/-- The longest literal at the front of the text, and what follows it. -/
def scan (cs : List Char) : Literal × List Char :=
  let (fraction, afterFraction) := scanFraction (cs.dropWhile Text.isDigit)
  let (exponent, rest) := Exponent.scan afterFraction
  (⟨cs.takeWhile Text.isDigit, fraction, exponent⟩, rest)

theorem scanFraction_spelling (cs : List Char) :
    ((scanFraction cs).1.map ('.' :: ·)).getD [] ++ (scanFraction cs).2 = cs := by
  unfold scanFraction
  split
  · simp [List.takeWhile_append_dropWhile]
  · rfl

/-- **Nothing is lost**: the spelling and the rest are the text. -/
theorem scan_spelling (cs : List Char) : (scan cs).1.spelling ++ (scan cs).2 = cs := by
  simp only [scan, spelling, List.append_assoc]
  rw [Exponent.scan_spelling, scanFraction_spelling, List.takeWhile_append_dropWhile]

/-- A literal has digits, before the point or after it. -/
def hasDigits (l : Literal) : Bool :=
  !l.whole.isEmpty || !(l.fraction.getD []).isEmpty

end Literal

/-- An unsigned number as a double: a literal, or a name for infinity or NaN in any case. -/
def readUnsigned? (cs : List Char) : Option Float :=
  let lower := String.ofList (cs.map Char.toLower)
  if lower = "inf" || lower = "infinity" then some (1 / 0)
  else if lower = "nan" then some (0 / 0)
  else
    match Literal.scan cs with
    | (literal, []) => if literal.hasDigits then some literal.toDecimal.toFloat else none
    | _ => none

/-- The nearest double to the number that the whole text spells, with an optional sign. -/
def readFloat? (text : String) : Option Float :=
  match text.toList with
  | '-' :: cs => (readUnsigned? cs).map (- ·)
  | '+' :: cs => readUnsigned? cs
  | cs => readUnsigned? cs

/-- One more than the largest count: a count has 64 bits. -/
def countLimit : Nat := 18446744073709551616

/-- The count that the whole text spells: digits, with an optional plus sign, below `countLimit`. -/
def readCount? (text : String) : Option Nat :=
  let digits :=
    match text.toList with
    | '+' :: cs => cs
    | cs => cs
  if !digits.isEmpty && digits.all Text.isDigit && Text.natOfDigits digits < countLimit then
    some (Text.natOfDigits digits)
  else none

end RealRoots
