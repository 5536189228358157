import RealRoots.Json.Basic
import RealRoots.Text.Front

/-!
# Reading JSON

`Json.parse?` reads a whole text as one value. Each reader returns the rest of the text with a proof
that it is shorter, which is why the recursion ends.
-/

namespace RealRoots.Json

open Text (Front)

/-! ## Blanks -/

/-- The characters that may stand between the parts of a value. -/
def isSpace (c : Char) : Bool :=
  c == ' ' || c == '\n' || c == '\t' || c == '\r'

def skipSpace (cs : List Char) : List Char :=
  cs.dropWhile isSpace

theorem length_skipSpace_le (cs : List Char) : (skipSpace cs).length ≤ cs.length :=
  (List.dropWhile_sublist _).length_le

theorem length_lt_of_skipSpace {cs rest : List Char} {c : Char} (h : skipSpace cs = c :: rest) :
    rest.length < cs.length := by
  have := length_skipSpace_le cs
  simp_all only [List.length_cons]
  omega

/-! ## Texts in quotes -/

/-- The 16-bit unit that four digits of base 16 spell. -/
def unit? (a b c d : Char) : Option Nat := do
  let a ← Text.hexValue? a
  let b ← Text.hexValue? b
  let c ← Text.hexValue? c
  let d ← Text.hexValue? d
  some (((a * 16 + b) * 16 + c) * 16 + d)

/-- The character of a pair of surrogate units. -/
def ofSurrogates? (high low : Nat) : Option Char :=
  if 0xD800 ≤ high ∧ high < 0xDC00 ∧ 0xDC00 ≤ low ∧ low < 0xE000 then
    some (Char.ofNat (0x10000 + (high - 0xD800) * 0x400 + (low - 0xDC00)))
  else none

/-- The character of one unit, which is no surrogate. -/
def ofUnit? (unit : Nat) : Option Char :=
  if unit < 0xD800 ∨ 0xE000 ≤ unit then some (Char.ofNat unit) else none

/-- The character that a backslash and one more character stand for. -/
def unescape? : Char → Option Char
  | '"' => some '"'
  | '\\' => some '\\'
  | '/' => some '/'
  | 'b' => some (Char.ofNat 0x8)
  | 'f' => some (Char.ofNat 0xC)
  | 'n' => some '\n'
  | 'r' => some '\r'
  | 't' => some '\t'
  | _ => none

/-- One character of a quoted text, perhaps written as an escape. -/
def quotedChar? (cs : List Char) : Option (Front Char Char cs) :=
  match cs with
  | '\\' :: 'u' :: a :: b :: c :: d :: rest => do
    let unit ← unit? a b c d
    match ofUnit? unit with
    | some char => some ⟨char, rest, by simp only [List.length_cons]; omega⟩
    | none =>
      match hrest : rest with
      | '\\' :: 'u' :: e :: f :: g :: h :: tail => do
        let char ← ofSurrogates? unit (← unit? e f g h)
        some ⟨char, tail, by simp only [hrest, List.length_cons]; omega⟩
      | _ => none
  | '\\' :: e :: rest => do
    let char ← unescape? e
    some ⟨char, rest, by simp only [List.length_cons]; omega⟩
  | c :: rest => if c.toNat < 0x20 ∨ c = '\\' then none else some ⟨c, rest, by simp⟩
  | [] => none

/-- A text up to its closing quote. -/
def quoted? (cs : List Char) : Option (Front Char (List Char) cs) :=
  match cs with
  | '"' :: rest => some ⟨[], rest, by simp⟩
  | cs => do
    let char ← quotedChar? cs
    have := char.shorter
    let text ← quoted? char.rest
    some ⟨char.value :: text.value, text.rest, Nat.lt_trans text.shorter char.shorter⟩
termination_by cs.length

/-! ## Numbers -/

/-- The digits of a number as JSON allows them: no leading zero, and digits after a point. -/
def wellSpelled (l : Literal) : Bool :=
  !l.whole.isEmpty && (l.whole.length = 1 || l.whole.head? ≠ some '0') &&
    l.fraction.all fun digits => !digits.isEmpty

/-- The value of a literal without a sign: a count if it is an integer of at most 64 bits. -/
def ofLiteral (l : Literal) : Json :=
  if l.fraction.isNone && l.exponent.isNone && Text.natOfDigits l.whole < countLimit then
    .count (Text.natOfDigits l.whole)
  else .number l.toDecimal.toFloat

theorem scan_shorter {cs : List Char} (h : wellSpelled (Literal.scan cs).1) :
    (Literal.scan cs).2.length < cs.length := by
  have hs := congrArg List.length (Literal.scan_spelling cs)
  have : 0 < (Literal.scan cs).1.whole.length := by
    simp only [wellSpelled, Bool.and_eq_true] at h
    cases hw : (Literal.scan cs).1.whole <;> simp_all
  simp only [Literal.spelling, List.length_append] at hs
  omega

/-- A literal at the front of the text. -/
def literal? (cs : List Char) : Option (Front Char Literal cs) :=
  if h : wellSpelled (Literal.scan cs).1 then
    some ⟨(Literal.scan cs).1, (Literal.scan cs).2, scan_shorter h⟩
  else none

/-- A number at the front of the text. One with a sign is no count. -/
def number? (cs : List Char) : Option (Front Char Json cs) :=
  match cs with
  | '-' :: rest =>
    (literal? rest).map fun l => (l.map fun l => .number (-l.toDecimal.toFloat)).within (by simp)
  | cs => (literal? cs).map fun l => l.map ofLiteral

/-- A word at the front of the text that stands for a value. -/
def wordFor? (first : Char) (others : List Char) (value : Json) (cs : List Char) :
    Option (Front Char Json cs) :=
  match h : Text.dropWord? (first :: others) cs with
  | some rest => some ⟨value, rest, by have := Text.dropWord?_length h; simp at this; omega⟩
  | none => none

/-- One of the three words at the front of the text. -/
def word? (cs : List Char) : Option (Front Char Json cs) :=
  (wordFor? 'n' ['u', 'l', 'l'] .null cs).or
    ((wordFor? 't' ['r', 'u', 'e'] (.bool true) cs).or
      (wordFor? 'f' ['a', 'l', 's', 'e'] (.bool false) cs))

/-! ## Values -/

mutual

/-- A value at the front of the text. -/
def value? (cs : List Char) : Option (Front Char Json cs) :=
  match hcs : skipSpace cs with
  | '"' :: tail => do
    let text ← quoted? tail
    some ((text.map fun text => .string (String.ofList text)).within
      (Nat.le_of_lt (length_lt_of_skipSpace hcs)))
  | '[' :: tail => do
    have := length_lt_of_skipSpace hcs
    let items ← items? true tail
    some ((items.map .array).within (Nat.le_of_lt this))
  | '\x7b' :: tail => do
    have := length_lt_of_skipSpace hcs
    let fields ← fields? true tail
    some ((fields.map .object).within (Nat.le_of_lt this))
  | start => do
    let value ← (number? start).or (word? start)
    some (value.within (hcs ▸ length_skipSpace_le cs))
termination_by (cs.length, 0)

/-- Items up to the closing bracket. There may be none only at the start. -/
def items? (start : Bool) (cs : List Char) : Option (Front Char (List Json) cs) :=
  match hcs : skipSpace cs with
  | ']' :: tail => if start then some ⟨[], tail, length_lt_of_skipSpace hcs⟩ else none
  | _ => do
    let item ← value? cs
    have := item.shorter
    match hrest : skipSpace item.rest with
    | ']' :: tail =>
      some ⟨[item.value], tail, Nat.lt_trans (length_lt_of_skipSpace hrest) item.shorter⟩
    | ',' :: tail =>
      have := Nat.lt_trans (length_lt_of_skipSpace hrest) item.shorter
      let items ← items? false tail
      some ((items.map (item.value :: ·)).within (Nat.le_of_lt this))
    | _ => none
termination_by (cs.length, 1)

/-- Fields up to the closing brace. There may be none only at the start. -/
def fields? (start : Bool) (cs : List Char) : Option (Front Char (List (String × Json)) cs) :=
  match hcs : skipSpace cs with
  | '\x7d' :: tail => if start then some ⟨[], tail, length_lt_of_skipSpace hcs⟩ else none
  | '"' :: tail => do
    have hlt := length_lt_of_skipSpace hcs
    let name ← quoted? tail
    have := name.shorter
    match hname : skipSpace name.rest with
    | ':' :: rest => do
      have := length_lt_of_skipSpace hname
      let value ← value? rest
      have := value.shorter
      match hrest : skipSpace value.rest with
      | '\x7d' :: tail =>
        have := length_lt_of_skipSpace hrest
        some ⟨[(String.ofList name.value, value.value)], tail, by omega⟩
      | ',' :: tail =>
        have := length_lt_of_skipSpace hrest
        let fields ← fields? false tail
        some ((fields.map ((String.ofList name.value, value.value) :: ·)).within (by omega))
      | _ => none
    | _ => none
  | _ => none
termination_by (cs.length, 1)

end

/-- The value that the whole text writes. A number that is no count is read as the double nearest to
it, and halfway between two as the one whose last bit is zero. -/
def parse? (text : String) : Option Json := do
  let value ← value? text.toList
  if (skipSpace value.rest).isEmpty then some value.value else none

end RealRoots.Json
