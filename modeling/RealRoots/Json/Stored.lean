import RealRoots.Json.Basic

/-!
# Stored values

A type is stored when its values are written as JSON and read back from it. Reading refuses a value
of the wrong kind and a missing field, and ignores unknown fields.

* `Stored`: writing and reading.
* `Spelled`: a finite type whose values are stored by name.
* `Json.required`, `Json.optional`, `Json.orElse`: one field of an object.
-/

namespace RealRoots

/-- Values that are written as JSON and read back from it. -/
class Stored (α : Type) where
  write : α → Json
  read? : Json → Option α

export Stored (write read?)

/-- A double is read from any number. One that is not finite is written as null. -/
instance : Stored Float where
  write x := if x.isFinite then .number x else .null
  read?
    | .number x => some x
    | .count n => some n.toFloat
    | _ => none

instance : Stored Nat where
  write := .count
  read?
    | .count n => some n
    | _ => none

instance : Stored Bool where
  write := .bool
  read?
    | .bool b => some b
    | _ => none

instance : Stored String where
  write := .string
  read?
    | .string s => some s
    | _ => none

/-- A character is a text of one character. -/
instance : Stored Char where
  write c := .string (String.singleton c)
  read?
    | .string s =>
      match s.toList with
      | [c] => some c
      | _ => none
    | _ => none

/-- An absent value is null. -/
instance [Stored α] : Stored (Option α) where
  write := Json.ofOption write
  read?
    | .null => some none
    | value => (read? value).map some

instance [Stored α] : Stored (List α) where
  write items := .array (items.map write)
  read?
    | .array items => items.mapM read?
    | _ => none

/-! ## Names for values -/

/-- A finite type with a name for each of its values. -/
class Spelled (α : Type) where
  all : List α
  spelling : α → String

/-- The value of that name. -/
def ofSpelling? (α : Type) [Spelled α] (name : String) : Option α :=
  (Spelled.all : List α).find? fun a => Spelled.spelling a = name

/-- A name. It is written as a text, or as an object with that name as its one field and null as its
value. -/
def Json.name? : Json → Option String
  | .string name => some name
  | .object [(name, .null)] => some name
  | _ => none

/-- A named value is stored as its name. -/
instance (priority := low) [Spelled α] : Stored α where
  write a := .string (Spelled.spelling a)
  read? value := value.name?.bind (ofSpelling? α)

/-! ## Fields -/

namespace Json

/-- A field that has to be there. -/
def required [Stored α] (value : Json) (name : String) : Option α :=
  (value.field? name).bind read?

/-- A field that may be missing or null. -/
def optional [Stored α] (value : Json) (name : String) : Option (Option α) :=
  ((value.field? name).getD .null) |> read?

/-- A field that has a default when it is missing. -/
def orElse [Stored α] (value : Json) (name : String) (default : α) : Option α :=
  ((value.field? name).map read?).getD (some default)

/-- Reads the fields of an object: the `named` ones, and those with a default. The values may also
stand in an array, in that order, and then some with a default may be missing at the end. -/
def readFields (named defaulted : List String) (fields : Json → Option α) : Json → Option α
  | .object given => fields (.object given)
  | .array values =>
    if named.length ≤ values.length ∧ values.length ≤ named.length + defaulted.length then
      fields (.object ((named ++ defaulted).zip values))
    else none
  | _ => none

/-- A value stored under the name of its kind. -/
def tagged (kind : String) (details : List (String × Json)) : Json :=
  .object [("type", .string kind), ("details", .object details)]

/-- The kind of a tagged value and its details. In an object the details may be missing, and are
then null; an array holds both. -/
def kind? : Json → Option (String × Json)
  | .array [kind, details] => kind.name?.map (·, details)
  | .object fields => do
    let kind ← (Json.object fields).field? "type"
    some (← kind.name?, ((Json.object fields).field? "details").getD .null)
  | _ => none

end Json

end RealRoots
