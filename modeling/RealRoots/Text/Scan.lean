import RealRoots.Text.Range

/-!
# Scanners

A scanner reads a value from the front of a text and leaves the rest, or fails. Of two alternatives
the second starts where the first one did.

* `Scan.many`: as many readings as there are, each of which has to take at least one character.
* `Scan.whole?`: the value of a whole text.
-/

namespace RealRoots

/-- Reads from the front of a text. -/
abbrev Scan := StateT (List Char) Option

namespace Scan

variable {α β : Type}

/-- The next character, which has to pass a test. -/
def satisfying (accepts : Char → Bool) : Scan Char
  | c :: rest => if accepts c then some (c, rest) else none
  | [] => none

/-- The next character, which has to be one of those given. -/
def oneOf (chars : List Char) : Scan Char :=
  satisfying chars.contains

/-- The given characters. -/
def word (chars : List Char) : Scan Unit := fun cs =>
  if cs.take chars.length = chars then some ((), cs.drop chars.length) else none

/-- The longest run of characters that pass a test. -/
def run (accepts : Char → Bool) : Scan (List Char) := fun cs =>
  some (cs.takeWhile accepts, cs.dropWhile accepts)

/-- A run of one character at least, and of at most `most`. -/
def someOf (accepts : Char → Bool) (most : Nat) : Scan (List Char) := fun cs =>
  let chars := (cs.takeWhile accepts).take most
  if chars.isEmpty then none else some (chars, cs.drop chars.length)

/-- Exactly `count` characters that pass a test. -/
def exactly (accepts : Char → Bool) (count : Nat) : Scan (List Char) := fun cs =>
  let chars := cs.take count
  if chars.length = count && chars.all accepts then some (chars, cs.drop count) else none

/-- A number of two digits, below `limit`. -/
def twoDigits (limit : Nat) : Scan Nat := do
  let n := Text.natOfDigits (← exactly Text.isDigit 2)
  guard (n < limit)
  return n

/-- What a reading takes, as it is spelled. -/
def spelling (p : Scan α) : Scan (List Char) := fun cs =>
  (p cs).map fun (_, rest) => (cs.take (cs.length - rest.length), rest)

/-- Is the text at its end? -/
def atEnd : Scan Bool :=
  return (← get).isEmpty

/-- The readings up to the first that fails, and the rest of the text. -/
def readings (p : Scan α) (cs : List Char) : List α × List Char :=
  match p cs with
  | none => ([], cs)
  | some (a, rest) =>
    if rest.length < cs.length then
      let (others, rest) := readings p rest
      (a :: others, rest)
    else ([], cs)
termination_by cs.length

/-- As many readings as there are. -/
def many (p : Scan α) : Scan (List α) := fun cs => some (readings p cs)

/-- Readings with a separator between them, perhaps none. -/
def separated (p : Scan α) (separator : Scan β) : Scan (List α) :=
  (do return (← p) :: (← many (separator *> p))) <|> pure []

/-- The value that the whole text is read as. -/
def whole? (p : Scan α) (text : String) : Option α :=
  match p text.toList with
  | some (a, []) => some a
  | _ => none

end Scan

end RealRoots
