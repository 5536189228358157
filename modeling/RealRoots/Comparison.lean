import RealRoots.Solver.Newton
import RealRoots.Solver.Secant

/-!
# Comparing two runs

Two results are judged by iterations, by accuracy and by convergence rate. A run that converged
beats one that did not; between two that converged the fewer iterations win, and the smaller
function value decides a tie.

* `Verdict`: which side won.
* `byIterations`, `byAccuracy`, `byRate`: the three judgments.
* `Comparison.judge`: two named results side by side.
* `ComparisonInput.solve`: both methods on one formula.
-/

namespace RealRoots

/-- Which side of a comparison won. -/
inductive Verdict where
  | first
  | second
  | tie
  /-- No side qualifies. -/
  | neither
  deriving DecidableEq, Repr

namespace Verdict

instance : Spelled Verdict where
  all := [.first, .second, .tie, .neither]
  spelling
    | .first => "first"
    | .second => "second"
    | .tie => "tie"
    | .neither => "neither"

/-- The lower value wins. Values without an order tie. -/
def ofLower [LT α] [DecidableLT α] (a b : α) : Verdict :=
  if a < b then first else if b < a then second else tie

/-- The lower value wins, if both are there. -/
def ofLower? (a b : Option Float) : Verdict :=
  match a, b with
  | some a, some b => ofLower a b
  | _, _ => tie

/-- A tie is decided by another verdict. -/
def breakTie (verdict next : Verdict) : Verdict :=
  match verdict with
  | tie => next
  | decided => decided

end Verdict

/-! ## Judgments -/

/-- A verdict on two runs that converged. A run that converged alone wins. -/
def amongConverged (a b : RootResult) (verdict : Verdict) : Verdict :=
  match a.converged, b.converged with
  | true, true => verdict
  | true, false => .first
  | false, true => .second
  | false, false => .neither

/-- The fewer iterations win. -/
def byIterations (a b : RootResult) : Verdict :=
  amongConverged a b (.ofLower a.totalIterations b.totalIterations)

/-- The smaller function value at the root wins, and after a tie the smaller last error. -/
def byAccuracy (a b : RootResult) : Verdict :=
  amongConverged a b <|
    (Verdict.ofLower? a.accuracy b.accuracy).breakTie (.ofLower? a.finalError b.finalError)

/-- The higher order of convergence wins, between two runs that converged and have one. -/
def byRate (a b : RootResult) : Verdict :=
  match a.converged && b.converged, a.convergenceRate, b.convergenceRate with
  | true, some ra, some rb => .ofLower rb ra
  | _, _, _ => .neither

/-! ## Comparisons -/

/-- A result under the name it is compared by. -/
structure NamedResult where
  name : String
  result : RootResult
  deriving DecidableEq

namespace NamedResult

/-- A result under the name of its method. -/
def ofResult (result : RootResult) : NamedResult :=
  ⟨result.method.name, result⟩

instance : Stored NamedResult where
  write r := .object [("name", write r.name), ("result", write r.result)]
  read? := Json.readFields ["name", "result"] [] fun value => do
    some ⟨← value.required "name", ← value.required "result"⟩

end NamedResult

/-- Two results side by side, and who won. -/
structure Comparison where
  first : NamedResult
  second : NamedResult
  winner : Verdict
  winnerByIterations : Verdict
  winnerByAccuracy : Verdict
  winnerByRate : Verdict
  iterationDelta : Nat
  executionTimeDeltaMs : Float
  deriving DecidableEq

namespace Comparison

/-- The comparison of two results. -/
def judge (first second : NamedResult) : Comparison :=
  let a := first.result
  let b := second.result
  { first
    second
    winner := (byIterations a b).breakTie (byAccuracy a b)
    winnerByIterations := byIterations a b
    winnerByAccuracy := byAccuracy a b
    winnerByRate := byRate a b
    iterationDelta := max a.totalIterations b.totalIterations -
      min a.totalIterations b.totalIterations
    executionTimeDeltaMs := (a.executionTimeMs - b.executionTimeMs).abs }

/-- The name of the side that a verdict points at. -/
def nameOf (c : Comparison) : Verdict → Option String
  | .first => some c.first.name
  | .second => some c.second.name
  | .tie | .neither => none

/-- The name of the winner, if there is a single one. -/
def winnerName (c : Comparison) : Option String :=
  c.nameOf c.winner

/-- Whether the roots are closer than the tolerance, if both runs found one. -/
def rootsAgree (c : Comparison) (tolerance : Float) : Option Bool := do
  let a ← c.first.result.root
  let b ← c.second.result.root
  some ((a - b).abs < tolerance)

/-- The fields of the stored form. -/
def fields (c : Comparison) : List (String × Json) :=
  [("first", write c.first), ("second", write c.second), ("winner", write c.winner),
    ("winner_by_iterations", write c.winnerByIterations),
    ("winner_by_accuracy", write c.winnerByAccuracy),
    ("winner_by_convergence_rate", write c.winnerByRate),
    ("iteration_delta", write c.iterationDelta),
    ("execution_time_delta_ms", write c.executionTimeDeltaMs)]

def fieldNames : List String :=
  ["first", "second", "winner", "winner_by_iterations", "winner_by_accuracy",
    "winner_by_convergence_rate", "iteration_delta", "execution_time_delta_ms"]

/-- The comparison with the fields of an object. -/
def ofFields? (value : Json) : Option Comparison := do
  some {
    first := ← value.required "first"
    second := ← value.required "second"
    winner := ← value.required "winner"
    winnerByIterations := ← value.required "winner_by_iterations"
    winnerByAccuracy := ← value.required "winner_by_accuracy"
    winnerByRate := ← value.required "winner_by_convergence_rate"
    iterationDelta := ← value.required "iteration_delta"
    executionTimeDeltaMs := ← value.required "execution_time_delta_ms" }

instance : Stored Comparison where
  write c := .object c.fields
  read? := Json.readFields fieldNames [] ofFields?

end Comparison

/-! ## Both methods on one formula -/

/-- The parameters of a comparison. Newton-Raphson starts from the first guess alone. -/
structure ComparisonInput where
  expression : String
  x0 : Float
  x1 : Float
  config : SolverConfig := {}
  derivative : DerivativeOptions := {}
  deriving DecidableEq

namespace ComparisonInput

instance : Stored ComparisonInput where
  write input := .object [("expression", write input.expression), ("x0", write input.x0),
    ("x1", write input.x1), ("config", write input.config), ("derivative", write input.derivative)]
  read? := Json.readFields ["expression", "x0", "x1"] ["config", "derivative"] fun value => do
    some {
      expression := ← value.required "expression"
      x0 := ← value.required "x0"
      x1 := ← value.required "x1"
      config := ← value.orElse "config" .default
      derivative := ← value.orElse "derivative" .default }

def newtonInput (input : ComparisonInput) : NewtonInput :=
  { expression := input.expression, x0 := input.x0, config := input.config
    derivative := input.derivative }

def secantInput (input : ComparisonInput) : SecantInput :=
  { expression := input.expression, x0 := input.x0, x1 := input.x1, config := input.config }

def validate (input : ComparisonInput) : Except SolverError Unit := do
  input.newtonInput.validate
  input.secantInput.validate

/-- The formula that both methods run over. -/
def formula (input : ComparisonInput) : Except SolverError Formula := do
  input.validate
  readFormula input.expression

/-- The comparison of both methods over the text of the input, which is read once. -/
def solve (input : ComparisonInput) : Except SolverError Comparison := do
  let f ← input.formula
  .ok <| .judge (.ofResult (Newton.run f input.newtonInput))
    (.ofResult (Secant.run f input.secantInput))

end ComparisonInput

end RealRoots
