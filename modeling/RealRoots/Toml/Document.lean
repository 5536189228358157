import RealRoots.Toml.Scalar
import RealRoots.Toml.Table

/-!
# Documents in TOML

A document is a list of lines: assignments, and headers that start a table. It is read as the JSON
object with the same keys.

* `Toml.value`: a value, which nests at most as deep as it is told.
* `Toml.parse?`: a whole document.
-/

namespace RealRoots.Toml

/-- The deepest nesting of values, and the longest dotted key. -/
def maxNesting : Nat := 79

/-! ## Keys and values -/

/-- The characters of a key without quotes. -/
def isBare (c : Char) : Bool :=
  Text.inRanges [(0x30, 0x39), (0x41, 0x5A), (0x5F, 0x5F), (0x61, 0x7A), (0x2D, 0x2D)] c

/-- One name of a key, and the blanks around it. -/
def name : Scan String := do
  space
  let chars ← basic <|> literal <|> (do
    let chars ← Scan.run isBare
    guard (!chars.isEmpty)
    return chars)
  space
  return String.ofList chars

def key : Scan Key := do
  let first ← name
  let names ← Scan.many (Scan.word ['.'] *> name)
  guard (names.length < maxNesting)
  return .of first names

/-- A key and its value. -/
def assignment (value : Scan Json) : Scan (Key × Json) := do
  let key ← key
  Scan.word ['=']
  space
  return (key, ← value)

/-- An array. Comments and new lines may stand between its items, and a comma after the last. -/
def array (value : Scan Json) : Scan Json := do
  Scan.word ['[']
  let items ← Scan.separated (gap *> value <* gap) (Scan.word [','])
  unless items.isEmpty do discard (optional (Scan.word [',']))
  gap
  Scan.word [']']
  return arrayJson items

/-- A table in braces, on one line. -/
def inlineTable (value : Scan Json) : Scan Json := do
  Scan.word ['\x7b']
  let assignments ← Scan.separated (assignment value <* space) (Scan.word [','])
  space
  Scan.word ['\x7d']
  let entries ← Entries.assignAll? [] assignments
  return tableJson (fieldsJson entries)

/-- A value with at most the given nesting. -/
def value : Nat → Scan Json
  | 0 => scalar
  | nesting + 1 => scalar <|> array (value nesting) <|> inlineTable (value nesting)

/-! ## Lines -/

/-- What starts a list of assignments. -/
inductive Header where
  | table (key : Key)
  /-- A further table of an array. -/
  | element (key : Key)

inductive Statement where
  | header (header : Header)
  | assign (key : Key) (value : Json)

def header : Scan Header :=
  (do
    Scan.word ['[', '[']
    let key ← key
    Scan.word [']', ']']
    return .element key) <|> do
  Scan.word ['[']
  let key ← key
  Scan.word [']']
  return .table key

def statement : Scan Statement :=
  (do return .header (← header)) <|> do
    let (key, value) ← assignment (value maxNesting)
    return .assign key value

/-- A line, which may hold nothing. -/
def line : Scan (Option Statement) := do
  space
  let statement ← optional statement
  lineEnd
  return statement

/-! ## Documents -/

/-- The assignments before the first header, and those under each header. -/
def sections : List Statement → List (Key × Json) × List (Header × List (Key × Json))
  | [] => ([], [])
  | .assign key value :: statements =>
    let (first, others) := sections statements
    ((key, value) :: first, others)
  | .header header :: statements =>
    let (first, others) := sections statements
    ([], (header, first) :: others)

/-- Adds a header and the assignments under it. -/
def addSection? (entries : Entries) : Header × List (Key × Json) → Option Entries
  | (.table key, assignments) => entries.addTable? key assignments
  | (.element key, assignments) => entries.addElement? key assignments

/-- The lines of a document. A mark of the byte order may stand at its start. -/
def statements : Scan (List Statement) := do
  discard (optional (Scan.word [Char.ofNat 0xFEFF]))
  return (← Scan.many line).filterMap id

/-- The document as an object. -/
def parse? (text : String) : Option Json := do
  let (first, others) := sections (← statements.whole? text)
  let entries ← others.foldlM addSection? (← Entries.assignAll? [] first)
  some (.object (fieldsJson entries))

end RealRoots.Toml
