import RealRoots.CommandLine.Command

/-!
# Help

The help of a command names its meaning, its usage, and what it takes. The meanings of options stand
in a column beside them, or below them where the longest does not fit on the line.
-/

namespace RealRoots.CommandLine

/-- The width of a line of help. -/
def helpWidth : Nat := 100

namespace OptionSpec

/-- The option as it is spelled in full: `--max-iterations <MAX_ITERATIONS>`. -/
def spelling (o : OptionSpec) : String :=
  let shown := o.long.map fun c => if c = '-' then '_' else c.toUpper
  "--" ++ o.long ++ if o.takesValue then " <" ++ shown ++ ">" else ""

/-- The option with its short form. -/
def leftColumn (o : OptionSpec) : String :=
  let short :=
    match o.short with
    | some c => "-" ++ String.singleton c ++ ", "
    | none => "    "
  "  " ++ short ++ o.spelling

/-- The meaning of the option, and what holds without it. -/
def meaning (o : OptionSpec) : String :=
  o.help ++
    match o.default with
    | some value => " [default: " ++ value ++ "]"
    | none => ""

/-- The shortest name of the option, by which it is sorted. -/
def sortKey (o : OptionSpec) : String :=
  match o.short with
  | some c => String.ofList [c.toLower, if c.isLower then '0' else '1']
  | none => o.long

end OptionSpec

/-- Two columns, the first of which is as wide as its widest entry. -/
def columns (rows : List (String × String)) : List String :=
  let width := (rows.map (·.1.length)).foldl max 0
  rows.map fun (left, right) => padRight width left ++ "  " ++ right

/-- The options of several lists by their position in their list, and those of one position by
name. -/
def interleaved (lists : List (List OptionSpec)) : List OptionSpec :=
  let placed := lists.flatMap fun options => options.zipIdx
  (placed.mergeSort fun a b =>
    a.2 < b.2 || (a.2 == b.2 && a.1.sortKey ≤ b.1.sortKey)).map (·.1)

/-- The options and their meanings. -/
def optionLines (options : List OptionSpec) : List String :=
  let width := (options.map (·.spelling.length)).foldl max 0 + 12
  let longest := (options.map (·.meaning.length)).foldl max 0
  if 40 < width ∧ helpWidth < width + longest then
    options.flatMap fun o => [o.leftColumn, "          " ++ o.meaning]
  else columns (options.map fun o => (o.leftColumn, o.meaning))

/-- The text as it is spelled: `<EXPRESSION>`. -/
def TextSpec.spelling (t : TextSpec) : String :=
  if t.repeated then "[" ++ t.name ++ "]..." else "<" ++ t.name ++ ">"

namespace CommandSpec

/-- How the command is called. -/
def usage (s : CommandSpec) : String :=
  let required := s.options.filter (·.required)
  let words := (if s.options.isEmpty then [] else ["[OPTIONS]"]) ++ required.map (·.spelling) ++
    (s.text.map (·.spelling)).toList ++
    (if s.commands.isEmpty then [] else ["<COMMAND>"])
  "Usage: " ++ String.intercalate " " (s.name :: words)

/-- The help of a command under its full name, in sections that are not empty. -/
def help (s : CommandSpec) : List String :=
  let titled (title : String) (lines : List String) :=
    if lines.isEmpty then [] else ["", title] ++ lines
  [s.about, "", s.usage] ++
    titled "Commands:" (columns (s.commands.map fun (name, about) => ("  " ++ name, about))) ++
    titled "Arguments:"
      (columns (s.text.map fun text => ("  " ++ text.spelling, text.help)).toList) ++
    titled "Options:" (optionLines s.options)

end CommandSpec

/-- What the program takes, or one of its commands under its full name. -/
def fullSpec : Option CommandSpec → CommandSpec
  | none => programSpec
  | some s =>
    { s with
      name := programSpec.name ++ " " ++ s.name
      options :=
        if s.name = helpCommand.name then []
        else interleaved [s.options, globalOptions] ++ [helpOption] }

/-- The help of the program, or of one of its commands. -/
def helpText (command : Option CommandSpec) : List String :=
  (fullSpec command).help

/-- The name and version of the program. -/
def versionText : String :=
  programSpec.name ++ " 0.1.0"

end RealRoots.CommandLine
