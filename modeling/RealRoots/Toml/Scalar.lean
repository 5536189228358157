import RealRoots.Calendar.Date
import RealRoots.Json.Basic
import RealRoots.Toml.Text

/-!
# Single values in TOML

A value is kept as JSON keeps it: a count for a natural number, a double for any other number, and a
text for a date or time, as it is spelled.
-/

namespace RealRoots.Toml

/-! ## Numbers -/

/-- Digits with single underscores between them, which are dropped. -/
def digits (accepts : Char → Bool) : Scan (List Char) := do
  let first ← Scan.satisfying accepts
  return first :: (← Scan.many (optional (Scan.word ['_']) *> Scan.satisfying accepts))

/-- Is there a minus sign? -/
def negative : Scan Bool := do
  return (← optional (Scan.oneOf ['+', '-'])) == some '-'

/-- Decimal digits without a leading zero. -/
def wholeDigits : Scan (List Char) := do
  let whole ← digits Text.isDigit
  guard (whole.length = 1 ∨ whole.head? ≠ some '0')
  return whole

/-- One more than the largest integer, which is also the size of the smallest. -/
def integerLimit : Int := 9223372036854775808

/-- An integer of 64 bits. -/
def ofInt? (n : Int) : Option Json :=
  if n < -integerLimit ∨ integerLimit ≤ n then none
  else if 0 ≤ n then some (.count n.toNat)
  else some (.number (Float.ofInt n))

def decimalInteger : Scan Json := do
  let isNegative ← negative
  let size : Int := Text.natOfDigits (← wholeDigits)
  ofInt? (if isNegative then -size else size)

/-- An integer after the mark of its base. -/
def integerInBase (base : Nat) (mark : Char) : Scan Json := do
  Scan.word ['0', mark]
  let value (c : Char) := (Text.hexValue? c).getD base
  ofInt? (Text.valueInBase base value (← digits fun c => value c < base))

def integer : Scan Json :=
  integerInBase 16 'x' <|> integerInBase 8 'o' <|> integerInBase 2 'b' <|> decimalInteger

def fraction : Scan (List Char) := do
  Scan.word ['.']
  digits Text.isDigit

def exponent : Scan Exponent := do
  let mark ← Scan.oneOf ['e', 'E']
  let sign ← optional (Scan.oneOf ['+', '-'])
  return ⟨mark, sign, ← digits Text.isDigit⟩

/-- A number with a fraction or an exponent. It may not be so large that it is infinite, unless it
is negative. -/
def float : Scan Json := do
  let isNegative ← negative
  let whole ← wholeDigits
  let fraction ← optional fraction
  let exponent ← optional exponent
  guard (fraction.isSome || exponent.isSome)
  let size := (Literal.mk whole fraction exponent).toDecimal.toFloat
  guard (isNegative || size.isFinite)
  return .number (if isNegative then -size else size)

/-- Infinity or NaN by name. -/
def namedFloat : Scan Json := do
  let isNegative ← negative
  let size ← (do Scan.word ['i', 'n', 'f']; return 1 / 0) <|>
    (do Scan.word ['n', 'a', 'n']; return 0 / 0)
  return .number (if isNegative then -size else size)

/-! ## Dates and times -/

def date : Scan Unit := do
  let year := Text.natOfDigits (← Scan.exactly Text.isDigit 4)
  Scan.word ['-']
  let month ← Scan.twoDigits 13
  Scan.word ['-']
  let day ← Scan.twoDigits 32
  guard (Date.of? year month day).isSome

def time : Scan Unit := do
  discard (Scan.twoDigits 24)
  Scan.word [':']
  discard (Scan.twoDigits 60)
  Scan.word [':']
  discard (Scan.twoDigits 61)
  discard (optional (Scan.word ['.'] *> Scan.satisfying Text.isDigit *> Scan.run Text.isDigit))

def offset : Scan Unit :=
  discard (Scan.oneOf ['Z', 'z']) <|> do
    discard (Scan.oneOf ['+', '-'])
    discard (Scan.twoDigits 24)
    Scan.word [':']
    discard (Scan.twoDigits 60)

/-- A date, a time, or both and perhaps an offset. -/
def dateTime : Scan Unit :=
  (do
    date
    discard (optional (Scan.oneOf ['T', 't', ' '] *> time *> optional offset))) <|> time

/-! ## Values -/

def boolean : Scan Json :=
  (do Scan.word ['t', 'r', 'u', 'e']; return .bool true) <|>
    (do Scan.word ['f', 'a', 'l', 's', 'e']; return .bool false)

/-- A value without parts. -/
def scalar : Scan Json :=
  (do return .string (← text)) <|>
    (do return .string (String.ofList (← Scan.spelling dateTime))) <|>
    float <|> integer <|> namedFloat <|> boolean

end RealRoots.Toml
