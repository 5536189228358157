import RealRoots.Catalogue
import RealRoots.Json.Text
import RealRoots.Sampling

/-!
# Reports

What the program prints when it is not asked for JSON, as lists of lines.

* `RootResult.report`: a run, with a table of its records.
* `Comparison.report`: two runs and who won.
* `catalogueReport`, `sampleReport`: the test cases, and the points of a curve.
-/

namespace RealRoots

/-! ## Lines and cells -/

/-- A line between two parts of a report. -/
def ruleLine : String :=
  "═══════════════════════════════════════════════════════════════════════"

/-- A heading between two lines. -/
def heading (text : String) : List String :=
  [ruleLine, "  " ++ text, ruleLine, ""]

/-- A row of a table. -/
def tableRow (cells : List String) : String :=
  "│ " ++ String.intercalate " │ " cells ++ " │"

/-- A number in a table, or a hyphen in its place. -/
def cell (value : Option Float) : String :=
  (value.map (scientificFixed 8)).getD "-"

/-- A time in milliseconds. -/
def milliseconds (time : Float) : String :=
  fixed 3 time ++ " ms"

/-! ## One run -/

/-- The row of a record. -/
def Iteration.row (it : Iteration) : String :=
  tableRow [padLeft 4 (toString it.index), padLeft 16 (fixed 10 it.x),
    padLeft 15 (cell (some it.fx)), padLeft 15 (cell it.derivative), padLeft 15 (cell it.error)]

/-- The table of the records. -/
def iterationTable (history : List Iteration) : List String :=
  ["┌──────┬──────────────────┬─────────────────┬─────────────────┬─────────────────┐",
    "│    n │                x │            f(x) │           f'(x) │           error │",
    "├──────┼──────────────────┼─────────────────┼─────────────────┼─────────────────┤"] ++
  history.map Iteration.row ++
  ["└──────┴──────────────────┴─────────────────┴─────────────────┴─────────────────┘", ""]

namespace RootResult

/-- The root, or why there is none. -/
def outcomeLines (r : RootResult) : List String :=
  match r.root, r.failure with
  | some root, _ => ["  Root:        " ++ fixed 12 root, "  f(root):     " ++ cell r.functionValue]
  | none, some failure =>
    ["  Failed:      " ++ failure.message, "  Hint:        " ++ failure.guidance]
  | none, none => ["  No root found"]

/-- The run as a report. -/
def report (r : RootResult) : List String :=
  heading (r.method.name.map Char.toUpper ++ " : f(x) = " ++ r.expression) ++
  iterationTable r.iterations ++
  r.outcomeLines ++
  ["  Iterations:  " ++ toString r.totalIterations ++ " (max " ++ toString r.maxIterations ++ ")",
    "  Tolerance:   " ++ scientific r.tolerance] ++
  (r.convergenceRate.map fun rate => "  Order est.:  " ++ fixed 3 rate).toList ++
  ["  Time:        " ++ milliseconds r.executionTimeMs, "",
    "  RESULT: " ++ (if r.converged then "✓ " else "✗ ") ++ r.summary, ""]

end RootResult

/-! ## Two runs -/

namespace Comparison

/-- The name of the side that a verdict points at, or a word for a verdict that points at none. -/
def verdictLabel (c : Comparison) (verdict : Verdict) : String :=
  match verdict with
  | .tie => "tie"
  | _ => (c.nameOf verdict).getD "-"

/-- The comparison as a report, after the reports of both runs. -/
def report (c : Comparison) : List String :=
  c.first.result.report ++ c.second.result.report ++
  heading "COMPARISON" ++
  ["  Fewer iterations:   " ++ c.verdictLabel c.winnerByIterations,
    "  Better accuracy:    " ++ c.verdictLabel c.winnerByAccuracy,
    "  Faster order:       " ++ c.verdictLabel c.winnerByRate,
    "  Iteration delta:    " ++ toString c.iterationDelta,
    "  Time delta:         " ++ milliseconds c.executionTimeDeltaMs] ++
  ((c.rootsAgree c.first.result.tolerance).map fun agree =>
    "  Same root:          " ++ if agree then "yes" else "no").toList ++
  ["", "  WINNER: " ++ c.verdictLabel c.winner, ""]

end Comparison

/-! ## Test cases and curves -/

/-- The row of a test case. -/
def TestCase.row (c : TestCase) : String :=
  tableRow [padRight 13 c.id, padRight 26 c.name, padRight 24 c.function,
    padLeft 5 (plain c.initialGuess), padLeft 5 (plain c.secondGuess)]

/-- The table of the test cases. -/
def catalogueReport (cases : List TestCase) : List String :=
  ["┌───────────────┬────────────────────────────┬──────────────────────────┬───────┬───────┐",
    "│ id            │ name                       │ f(x)                     │    x0 │    x1 │",
    "├───────────────┼────────────────────────────┼──────────────────────────┼───────┼───────┤"] ++
  cases.map TestCase.row ++
  ["└───────────────┴────────────────────────────┴──────────────────────────┴───────┴───────┘"]

/-- A row of a table of values. -/
def sampleRow (x y : String) : String :=
  padLeft 16 x ++ "  " ++ padLeft 18 y

/-- The table of the values of a formula at `points` places, of which `samples` have a value. -/
def sampleReport (f : Formula) (start stop : Float) (points : Nat) (samples : List SamplePoint) :
    List String :=
  ["f(x) = " ++ f.source ++ " on [" ++ plain start ++ ", " ++ plain stop ++ "]", "",
    sampleRow "x" "f(x)"] ++
  samples.map (fun p => sampleRow (fixed 8 p.x) (scientificFixed 10 p.y)) ++
  if samples.length < points then
    ["", "(" ++ toString (points - samples.length) ++ " of " ++ toString points ++
      " points undefined)"]
  else []

end RealRoots
