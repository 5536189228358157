import RealRoots.Json.Basic

/-!
# Tables in TOML

A table is built from assignments and headers. It can be given by a header of its own, be implied by
a longer header, or be made by a dotted key, and this decides what may still be added to it: nothing
is defined twice.

* `Entries.assign?`: a key and its value.
* `Entries.addTable?`, `Entries.addElement?`: a header and the assignments under it.
* `Entries.toJson`: the finished table.
-/

namespace RealRoots.Toml

/-- A dotted key: the names of the tables on the way, and the last name. -/
structure Key where
  path : List String
  name : String

/-- The key with the given names. -/
def Key.of (first : String) : List String → Key
  | [] => ⟨[], first⟩
  | name :: names =>
    let key := Key.of name names
    ⟨first :: key.path, key.name⟩

/-- How a table came to be. -/
inductive Origin where
  /-- By a header of its own. -/
  | header
  /-- By a longer header. -/
  | implied
  /-- By a dotted key. -/
  | dotted
  deriving DecidableEq

/-- What a name stands for in a table that is being built. -/
inductive Node where
  | value (value : Json)
  | table (origin : Origin) (entries : List (String × Node))
  /-- The tables of an array, the latest first. -/
  | elements (tables : List (List (String × Node)))

/-- A table that is being built. -/
abbrev Entries := List (String × Node)

namespace Entries

/-- The table with another node under the name. -/
def put (entries : Entries) (name : String) (node : Node) : Entries :=
  if entries.any (·.1 = name) then
    entries.map fun entry => if entry.1 = name then (name, node) else entry
  else entries ++ [(name, node)]

/-- Changes the table at the end of a path. Missing tables on the way are `made`. A dotted key does
not reach into a table that has a header of its own. -/
def changeAt? (made : Origin) (change : Origin → Entries → Option Entries) :
    Origin → List String → Entries → Option Entries
  | here, [], entries => change here entries
  | _, name :: path, entries => do
    let node ←
      match entries.lookup name with
      | none => (changeAt? made change made path []).map (.table made)
      | some (.table origin inner) =>
        if made = .dotted ∧ origin = .header then none
        else (changeAt? made change origin path inner).map (.table origin)
      | some (.elements (last :: earlier)) =>
        (changeAt? made change .header path last).map fun last => .elements (last :: earlier)
      | _ => none
    some (entries.put name node)

/-- Adds a key and its value. The last table of a dotted key is one that a dotted key made. -/
def assign? (entries : Entries) (key : Key) (value : Json) : Option Entries :=
  changeAt? .dotted
    (fun here inner =>
      if (here = .dotted ↔ key.path = []) ∨ (inner.lookup key.name).isSome then none
      else some (inner.put key.name (.value value)))
    .header key.path entries

/-- Adds several keys and their values. -/
def assignAll? (entries : Entries) (assignments : List (Key × Json)) : Option Entries :=
  assignments.foldlM (fun entries (key, value) => entries.assign? key value) entries

/-- Adds a table with a header, which may so far be implied. -/
def addTable? (entries : Entries) (key : Key) (assignments : List (Key × Json)) : Option Entries :=
  changeAt? .implied
    (fun _ inner => do
      let table ←
        match inner.lookup key.name with
        | none => assignAll? [] assignments
        | some (.table .implied table) => assignAll? table assignments
        | _ => none
      some (inner.put key.name (.table .header table)))
    .header key.path entries

/-- Adds a table to an array of tables. -/
def addElement? (entries : Entries) (key : Key) (assignments : List (Key × Json)) :
    Option Entries :=
  changeAt? .implied
    (fun _ inner => do
      let earlier ←
        match inner.lookup key.name with
        | none => some []
        | some (.elements tables) => some tables
        | _ => none
      some (inner.put key.name (.elements ((← assignAll? [] assignments) :: earlier))))
    .header key.path entries

end Entries

/-- A table of the given fields, which is null without any: an empty table holds no value. -/
def tableJson (fields : List (String × Json)) : Json :=
  if fields.isEmpty then .null else .object fields

/-- An array of the given items, which is null without any. -/
def arrayJson (items : List Json) : Json :=
  if items.isEmpty then .null else .array items

mutual

def Node.toJson : Node → Json
  | .value value => value
  | .table _ entries => tableJson (fieldsJson entries)
  | .elements tables => arrayJson (elementsJson tables).reverse

def fieldsJson : List (String × Node) → List (String × Json)
  | [] => []
  | (name, node) :: entries => (name, node.toJson) :: fieldsJson entries

def elementsJson : List (List (String × Node)) → List Json
  | [] => []
  | table :: tables => tableJson (fieldsJson table) :: elementsJson tables

end

end RealRoots.Toml
