import RealRoots.Text.Scan

/-!
# Texts in TOML

* `space`, `comment`, `newLine`, `gap`: what may stand between the parts of a document.
* `text`: a text in one of four quotes. Double quotes allow escapes, and three quotes several lines.
-/

namespace RealRoots.Toml

/-! ## Blanks -/

def isSpace (c : Char) : Bool :=
  c == ' ' || c == '\t'

/-- The characters of one line: all but the controls other than the tab. -/
def isPlain (c : Char) : Bool :=
  c == '\t' || (0x20 ≤ c.toNat && c.toNat ≠ 0x7F)

def space : Scan Unit :=
  discard (Scan.run isSpace)

def newLine : Scan Unit :=
  Scan.word ['\n'] <|> Scan.word ['\r', '\n']

def comment : Scan Unit := do
  Scan.word ['#']
  discard (Scan.run isPlain)

/-- Blanks, comments and new lines. -/
def gap : Scan Unit :=
  discard (Scan.many (discard (Scan.satisfying isSpace) <|> newLine <|> comment))

/-- The end of a line, perhaps with a comment. -/
def lineEnd : Scan Unit := do
  space
  discard (optional comment)
  unless ← Scan.atEnd do newLine

/-! ## Texts of one line -/

/-- A character given by its number in base 16. -/
def numbered (count : Nat) : Scan Char := do
  let digits ← Scan.exactly (fun c => (Text.hexValue? c).isSome) count
  let code := Text.valueInBase 16 (fun c => (Text.hexValue? c).getD 0) digits
  guard code.isValidChar
  return Char.ofNat code

/-- A character that a backslash starts. -/
def escape : Scan Char := do
  Scan.word ['\\']
  match ← Scan.satisfying fun _ => true with
  | 'b' => return Char.ofNat 0x8
  | 't' => return '\t'
  | 'n' => return '\n'
  | 'f' => return Char.ofNat 0xC
  | 'r' => return '\r'
  | '"' => return '"'
  | '\\' => return '\\'
  | 'u' => numbered 4
  | 'U' => numbered 8
  | _ => failure

/-- A text in double quotes, with escapes. -/
def basic : Scan (List Char) := do
  Scan.word ['"']
  let chars ← Scan.many (escape <|> Scan.satisfying fun c => isPlain c && c != '"' && c != '\\')
  Scan.word ['"']
  return chars

/-- A text in single quotes, as it stands. -/
def literal : Scan (List Char) := do
  Scan.word ['\x27']
  let chars ← Scan.run fun c => isPlain c && c != '\x27'
  Scan.word ['\x27']
  return chars

/-! ## Texts of several lines -/

/-- One or two quotes, which do not close a text that opened with three. -/
def fewQuotes (quote : Char) : Scan (List Char) := do
  let quotes ← Scan.run (· == quote)
  guard (quotes.length ≤ 2)
  return quotes

/-- Three quotes. One or two more before them belong to the text. -/
def closing (quote : Char) : Scan (List Char) := do
  let quotes ← Scan.run (· == quote)
  guard (3 ≤ quotes.length ∧ quotes.length ≤ 5)
  return quotes.drop 3

/-- A backslash at the end of a line, which drops the blanks up to the next text. -/
def continuation : Scan (List Char) := do
  Scan.word ['\\']
  space
  newLine
  discard (Scan.many (discard (Scan.satisfying isSpace) <|> newLine))
  return []

/-- A text between three quotes, the first new line left out. -/
def lines (quote : Char) (piece : Scan (List Char)) : Scan (List Char) := do
  Scan.word [quote, quote, quote]
  discard (optional newLine)
  let pieces ← Scan.many (piece <|> (do newLine; return ['\n']) <|> fewQuotes quote)
  return pieces.flatten ++ (← closing quote)

def basicLines : Scan (List Char) :=
  lines '"' <| continuation <|> (do return [← escape]) <|>
    (do return [← Scan.satisfying fun c => isPlain c && c != '"' && c != '\\'])

def literalLines : Scan (List Char) :=
  lines '\x27' (do return [← Scan.satisfying fun c => isPlain c && c != '\x27'])

/-- A text in one of the four quotes. -/
def text : Scan String := do
  return String.ofList (← basicLines <|> literalLines <|> basic <|> literal)

end RealRoots.Toml
