import RealRoots.CommandLine.Help
import RealRoots.CommandLine.Report
import RealRoots.Record
import RealRoots.Toml.Document

/-!
# Sessions

A session carries out one list of arguments. What it needs from outside is a parameter: settings
files, a clock that times the runs, and the identity of a record.

* `Session.settings`: the settings file, whose values have to be in range whatever the options say.
* `Session.carryOut`: a command under given settings.
* `Session.respond`: what is printed for a list of arguments, and how the program exits.
-/

namespace RealRoots.CommandLine

/-- What is found under the name of a settings file. -/
inductive ConfigFile where
  | missing
  | unreadable (reason : String)
  | text (text : String)

/-- What a session needs from outside. -/
structure Surroundings (m : Type → Type) where
  configFile : String → m ConfigFile
  /-- A value that has to be computed, and the milliseconds that it took. -/
  timed : {α : Type} → (Unit → α) → m (α × Float)
  /-- The identifier and the time of a new record. -/
  identity : m (Uuid × Timestamp)

/-- Why a command is not carried out to its end. -/
inductive Failure where
  | solver (error : SolverError)
  | unreadableConfig (path reason : String)
  | invalidConfig (path : String)
  | unknownCase (id : String)

namespace Failure

def message : Failure → String
  | solver error => error.message
  | unreadableConfig path reason => "Failed to read config file '" ++ path ++ "': " ++ reason
  | invalidConfig path => "Invalid config file '" ++ path ++ "'"
  | unknownCase id => "Unknown test case '" ++ id ++ "' (run `rootfind cases` for the list)"

/-- What is printed of the failure. An error of a solver is also given with advice and as JSON. -/
def report (failure : Failure) : List String :=
  ("Error: " ++ failure.message) ::
    match failure with
    | solver error =>
      ["Hint: " ++ error.guidance, "", "Error JSON:", (write error).pretty]
    | _ => []

end Failure

/-- The lines that a command prints, and the failure that ended it. -/
structure Printout where
  lines : List String := []
  failure : Option Failure := none

/-- What the program does in the end. The lines of its log, which also go to standard error, are no
part of this. -/
structure Response where
  exitCode : UInt8
  /-- The lines on standard output. -/
  output : List String := []
  /-- The lines on standard error that say why nothing else was printed. -/
  errors : List String := []

namespace Printout

def failing (failure : Failure) : Printout :=
  { failure := some failure }

/-- The printout after lines that were printed before. -/
def after (printout : Printout) (lines : List String) : Printout :=
  { printout with lines := lines ++ printout.lines }

def json (value : Json) : Printout :=
  { lines := [value.pretty] }

def toResponse (printout : Printout) : Response :=
  match printout.failure with
  | none => { exitCode := 0, output := printout.lines }
  | some failure => { exitCode := 1, output := printout.lines, errors := failure.report }

end Printout

namespace Session

/-- The settings of a file. Without the file the defaults hold. -/
def settings (path : String) : ConfigFile → Except Failure Settings
  | .missing => .ok .default
  | .unreadable reason => .error (.unreadableConfig path reason)
  | .text text =>
    match (Toml.parse? text).bind read? with
    | none => .error (.invalidConfig path)
    | some (settings : Settings) => do
      settings.validate.mapError .solver
      .ok settings

variable {m : Type → Type} [Monad m] (outside : Surroundings m)

/-- Prints an outcome, as a report or as a record in JSON. -/
def printOutcome (json : Bool) (outcome : Outcome) : m Printout := do
  if json then
    let (id, created) ← outside.identity
    return .json (write (Record.ofOutcome id created outcome))
  match outcome with
  | .single result => return { lines := result.report }
  | .comparison c => return { lines := c.report }

/-- Runs one method and prints its result. -/
def printRun (json : Bool) (run : Unit → Except SolverError RootResult) : m Printout := do
  match ← outside.timed run with
  | (.error e, _) => return .failing (.solver e)
  | (.ok result, time) => printOutcome outside json (.single (result.timed time))

/-- Runs both methods over one formula and prints the comparison. -/
def printComparison (json : Bool) (input : ComparisonInput) : m Printout := do
  match input.formula with
  | .error e => return .failing (.solver e)
  | .ok f => do
    let (newton, newtonTime) ← outside.timed fun _ => Newton.run f input.newtonInput
    let (secant, secantTime) ← outside.timed fun _ => Secant.run f input.secantInput
    printOutcome outside json <| .comparison <| .judge (.ofResult (newton.timed newtonTime))
      (.ofResult (secant.timed secantTime))

/-- Prints a table of a function. -/
def printSample (settings : Settings) (json : Bool) (expression : String) (center : Option Float)
    (range : Option (Float × Float)) (points : Option Nat) : Printout :=
  let (start, stop) := range.getD (plotRange center settings.plotPadding)
  let points := points.getD settings.samplePoints
  let samples := do
    let f ← readFormula expression
    .ok (f, ← sample f start stop points)
  match samples with
  | .error e => .failing (.solver e)
  | .ok (f, samples) =>
    if json then .json (write samples) else { lines := sampleReport f start stop points samples }

/-- Carries out a command. -/
def carryOut (settings : Settings) (json : Bool) : Command → m Printout
  | .newton expression x0 finalPoint flags =>
    printRun outside json fun _ => Newton.solve {
      expression, x0
      config := flags.solverConfig settings
      derivative := flags.derivativeOptions settings
      recordFinalPoint := finalPoint || settings.recordFinalPoint }
  | .secant expression x0 x1 flags =>
    printRun outside json fun _ =>
      Secant.solve { expression, x0, x1, config := flags.solverConfig settings }
  | .compare expression x0 x1 flags =>
    printComparison outside json {
      expression, x0, x1
      config := flags.solverConfig settings
      derivative := flags.derivativeOptions settings }
  | .cases =>
    return if json then .json (.array (catalogue.map TestCase.toJson))
      else { lines := catalogueReport catalogue }
  | .case id flags =>
    match findCase? id with
    | none => return .failing (.unknownCase id)
    | some c => do
      let printout ← printComparison outside json { c.comparisonInput with
        config := flags.solverConfig settings
        derivative := flags.derivativeOptions settings }
      return printout.after (if json then [] else [c.name ++ ": " ++ c.description, ""])
  | .sample expression center range points =>
    return printSample settings json expression center range points

/-- Carries out an invocation, after its settings file is read. -/
def invoke (invocation : Invocation) : m Printout := do
  match settings invocation.config (← outside.configFile invocation.config) with
  | .error failure => return .failing failure
  | .ok settings => carryOut outside settings invocation.json invocation.command

/-- Carries out a list of arguments. -/
def respond (args : List String) : m Response := do
  match Invocation.read args with
  | .error (.help, command) => return { exitCode := 0, output := helpText command }
  | .error (.version, _) => return { exitCode := 0, output := [versionText] }
  | .error (.misuse, command) =>
    return { exitCode := 2, errors := ["Error: invalid arguments", "", (fullSpec command).usage] }
  | .ok invocation => return (← invoke outside invocation).toResponse

end Session

end RealRoots.CommandLine
