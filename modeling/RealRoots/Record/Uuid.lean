import RealRoots.Json.Stored
import RealRoots.Text.Front
import RealRoots.Text.Range

/-!
# Identifiers of records

A UUID is 32 digits of base 16, written in lower case in groups of 8, 4, 4, 4 and 12 with hyphens
between them.

* `Uuid.text`, `Uuid.ofText?`: writing and reading. Reading also takes the digits alone, and the
  groups in braces or after `urn:uuid:`.
* `Uuid.random`: an identifier of version 4.
-/

namespace RealRoots

structure Uuid where
  /-- Most significant first. -/
  digits : List (Fin 16)
  length_digits : digits.length = 32
  deriving DecidableEq

namespace Uuid

/-- The sizes of the groups. -/
def groups : List Nat := [8, 4, 4, 4, 12]

/-- The characters in groups of the given sizes with hyphens between them. The last group takes all
that is left. -/
def withHyphens : List Nat → List Char → List Char
  | size :: sizes@(_ :: _), cs => cs.take size ++ '-' :: withHyphens sizes (cs.drop size)
  | _, cs => cs

/-- The characters without the hyphens between groups of the given sizes. -/
def withoutHyphens? : List Nat → List Char → Option (List Char)
  | size :: sizes@(_ :: _), cs =>
    match cs.drop size with
    | '-' :: rest => (withoutHyphens? sizes rest).map (cs.take size ++ ·)
    | _ => none
  | _, cs => some cs

def text (id : Uuid) : String :=
  String.ofList (withHyphens groups (id.digits.map fun d => Nat.digitChar d.val))

/-- The last digit of a number. -/
def lastDigit (n : Nat) : Fin 16 :=
  Fin.ofNat 16 n

def digit? (c : Char) : Option (Fin 16) :=
  (Text.hexValue? c).map lastDigit

/-- The identifier with the given digits, in either case. -/
def ofDigits? (cs : List Char) : Option Uuid := do
  let digits ← cs.mapM digit?
  if h : digits.length = 32 then some ⟨digits, h⟩ else none

/-- The identifier written in groups. -/
def ofGroups? (cs : List Char) : Option Uuid :=
  (withoutHyphens? groups cs).bind ofDigits?

/-- What stands between two braces. -/
def unbraced? (cs : List Char) : Option (List Char) :=
  match cs, cs.getLast? with
  | '\x7b' :: rest, some '\x7d' => some rest.dropLast
  | _, _ => none

def ofText? (text : String) : Option Uuid :=
  let cs := text.toList
  (ofDigits? cs).or <| (ofGroups? cs).or <|
    ((Text.dropWord? "urn:uuid:".toList cs).bind ofGroups?).or ((unbraced? cs).bind ofGroups?)

instance : Stored Uuid where
  write id := .string id.text
  read?
    | .string text => ofText? text
    | _ => none

/-- The version, which is the first digit of the third group. -/
def version (id : Uuid) : Nat :=
  (id.digits.get ⟨12, by rw [id.length_digits]; decide⟩).val

/-- The identifier with the given digits, apart from the version 4 and the two bits that tell how it
is laid out. -/
def random (digit : Nat → Fin 16) : Uuid where
  digits := (List.range 32).map fun i =>
    if i = 12 then 4 else if i = 16 then 8 + digit i % 4 else digit i
  length_digits := by simp

end Uuid

end RealRoots
