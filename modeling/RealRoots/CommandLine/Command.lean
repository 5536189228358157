import RealRoots.CommandLine.Arguments
import RealRoots.Settings

/-!
# Commands

* `Command`: what the program is asked to do.
* `Invocation.read`: the command that a list of arguments spells. Some options hold for all
  commands, and may stand before the name of the command or after it.
* `SolveFlags`: the options that override the settings.
-/

namespace RealRoots.CommandLine

/-- Options that override the settings of a run. -/
structure SolveFlags where
  tolerance : Option Float := none
  maxIterations : Option Nat := none
  residual : Bool := false
  shortcut : Bool := false
  deriving DecidableEq

namespace SolveFlags

/-- The configuration of a run: an option over the settings. -/
def solverConfig (flags : SolveFlags) (settings : Settings) : SolverConfig where
  tolerance := flags.tolerance.getD settings.tolerance
  maxIterations := flags.maxIterations.getD settings.maxIterations
  stoppingRule := if flags.residual then .residual else settings.stoppingRule

/-- The derivative options of a run: the switch over the settings. -/
def derivativeOptions (flags : SolveFlags) (settings : Settings) : DerivativeOptions where
  method := if flags.shortcut then .shortcut else settings.derivativeMethod
  step := settings.derivativeStep

end SolveFlags

/-- What the program is asked to do. -/
inductive Command where
  | newton (expression : String) (x0 : Float) (finalPoint : Bool) (flags : SolveFlags)
  | secant (expression : String) (x0 x1 : Float) (flags : SolveFlags)
  | compare (expression : String) (x0 x1 : Float) (flags : SolveFlags)
  /-- The list of the test cases. -/
  | cases
  /-- Both methods on a test case. -/
  | case (id : String) (flags : SolveFlags)
  /-- A table of the function. A range overrides a center. -/
  | sample (expression : String) (center : Option Float) (range : Option (Float × Float))
      (points : Option Nat)
  deriving DecidableEq

/-! ## What the commands take -/

/-- The settings file that is read if no other is named. -/
def defaultConfigFile : String := "rootfind.toml"

/-- The options of every command. -/
def globalOptions : List OptionSpec := [
  { long := "verbose", short := some 'v', kind := .switch, help := "Enable verbose output" },
  { long := "config", short := some 'c', kind := .value .text false
    default := some defaultConfigFile, help := "Configuration file path" },
  { long := "json", kind := .switch, help := "Print the calculation record as JSON" }]

def helpOption : OptionSpec :=
  { long := "help", short := some 'h', kind := .stop .help, help := "Print help" }

def versionOption : OptionSpec :=
  { long := "version", short := some 'V', kind := .stop .version, help := "Print version" }

/-- A guess, which has to be given. -/
def guess (long help : String) : OptionSpec :=
  { long, kind := .value .number true, required := true, help }

/-- The options of every command that solves. -/
def solveOptions : List OptionSpec := [
  { long := "tolerance", short := some 't', kind := .value .number false
    help := "Convergence tolerance" },
  { long := "max-iterations", short := some 'n', kind := .value .count false
    help := "Maximum number of iterations" },
  { long := "residual", kind := .switch, help := "Stop on |f(x)| instead of the step size" },
  { long := "shortcut", kind := .switch
    help := "Use exact derivatives for recognised patterns" }]

/-- The function text that a command takes. -/
def functionText : TextSpec :=
  { name := "EXPRESSION", help := "Function of x, e.g. \"x^2 - 4\"" }

/-- What each command takes, apart from the options of every command. -/
def commandSpecs : List CommandSpec := [
  { name := "newton"
    about := "Find a root with Newton-Raphson"
    text := functionText
    options := [guess "x0" "Initial guess",
      { long := "final-point", kind := .switch
        help := "Append (root, f(root), f'(root)) to the history after convergence" }] ++
      solveOptions },
  { name := "secant"
    about := "Find a root with the Secant method"
    text := functionText
    options := [guess "x0" "First guess", guess "x1" "Second guess (must differ from x0)"] ++
      solveOptions },
  { name := "compare"
    about := "Run both methods on the same function and compare them"
    text := functionText
    options := [guess "x0" "Newton's guess and Secant's first guess",
      guess "x1" "Secant's second guess"] ++ solveOptions },
  { name := "cases"
    about := "List the predefined test cases" },
  { name := "case"
    about := "Compare both methods on a predefined test case"
    text := some { name := "ID", help := "Test case id (see `rootfind cases`)" }
    options := solveOptions },
  { name := "sample"
    about := "Tabulate f(x) over a range"
    text := functionText
    options := [
      { long := "center", kind := .value .number true
        help := "Centre of the range (range is centre +/- padding)" },
      { long := "start", kind := .value .number true, partner := some "end"
        help := "Range start (overrides --center)" },
      { long := "end", kind := .value .number true, partner := some "start"
        help := "Range end (overrides --center)" },
      { long := "points", short := some 'p', kind := .value .count false
        help := "Number of points" }] }]

/-- The command that prints help. -/
def helpCommand : CommandSpec :=
  { name := "help"
    about := "Print this message or the help of the given subcommand(s)"
    text := some {
      name := "COMMAND", help := "Print help for the subcommand(s)", repeated := true } }

/-- What the program takes before the name of a command. -/
def programSpec : CommandSpec where
  name := "rootfind"
  about := "Rootfind CLI application - run and compare root-finding methods from the terminal"
  options := globalOptions ++ [helpOption, versionOption]
  commands := (commandSpecs ++ [helpCommand]).map fun s => (s.name, s.about)

/-- What a command takes, the options of every command included. -/
def CommandSpec.withGlobals (s : CommandSpec) : CommandSpec :=
  { s with options := s.options ++ globalOptions ++ [helpOption] }

/-! ## Reading a command -/

/-- Arguments that are carried out. -/
structure Invocation where
  config : String
  json : Bool
  command : Command
  deriving DecidableEq

/-- Why arguments are not carried out, and the command whose help is asked for. -/
abbrev Halt := Stop × Option CommandSpec

def solveFlags (given : Given) : SolveFlags where
  tolerance := given.number? "tolerance"
  maxIterations := given.count? "max-iterations"
  residual := given.has "residual"
  shortcut := given.has "shortcut"

/-- The command of that name with the given arguments. -/
def Command.of? (name : String) (given : Given) : Option Command :=
  match name with
  | "newton" => do
    some (newton (← given.text) (← given.number? "x0") (given.has "final-point")
      (solveFlags given))
  | "secant" => do
    some (secant (← given.text) (← given.number? "x0") (← given.number? "x1") (solveFlags given))
  | "compare" => do
    some (compare (← given.text) (← given.number? "x0") (← given.number? "x1") (solveFlags given))
  | "cases" => some cases
  | "case" => do some (case (← given.text) (solveFlags given))
  | "sample" => do
    let range := do some (← given.number? "start", ← given.number? "end")
    some (sample (← given.text) (given.number? "center") range (given.count? "points"))
  | _ => none

/-- The command whose help the arguments of the help command ask for. -/
def helpTopic : List String → Except Halt (Option CommandSpec)
  | [] => .ok none
  | [name] =>
    match (commandSpecs ++ [helpCommand]).find? (·.name = name) with
    | some s => .ok s
    | none => .error (.misuse, none)
  | _ => .error (.misuse, none)

namespace Invocation

/-- The invocation that the arguments spell. A global option after the name of the command
overrides the same option before it. -/
def read (args : List String) : Except Halt Invocation := do
  match ← (programSpec.read args).mapError (·, none) with
  | (_, []) => throw (.misuse, none)
  | (before, name :: rest) =>
    match commandSpecs.find? (·.name = name) with
    | none => throw (.help, ← helpTopic rest)
    | some command =>
      let (given, _) ← (command.withGlobals.read rest).mapError (·, some command)
      match Command.of? name given with
      | none => throw (.misuse, some command)
      | some c => .ok {
          config := (given.options ++ before.options).lookup "config" |>.getD defaultConfigFile
          json := given.has "json" || before.has "json"
          command := c }

end Invocation

end RealRoots.CommandLine
