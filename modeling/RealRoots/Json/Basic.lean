import RealRoots.Number.Literal

/-!
# JSON values

A number is a count when it is written as a non-negative integer of at most 64 bits, and a double
otherwise. Objects keep the order of their fields.
-/

namespace RealRoots

inductive Json where
  | null
  | bool (value : Bool)
  | count (value : Nat)
  | number (value : Float)
  | string (value : String)
  | array (items : List Json)
  | object (fields : List (String × Json))
  deriving Inhabited

namespace Json

/-- The field of that name. Of several the last one counts. -/
def field? (name : String) : Json → Option Json
  | .object fields => (fields.reverse.find? (·.1 = name)).map (·.2)
  | _ => none

/-- An absent value is written as null. -/
def ofOption (write : α → Json) : Option α → Json
  | none => .null
  | some a => write a

end Json

end RealRoots
