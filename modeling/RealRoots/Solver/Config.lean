import RealRoots.Formula
import RealRoots.Solver.Error

/-!
# Configuration of a run

* `StoppingRule`: what the error of a step measures.
* `SolverConfig`: when a run has converged, and when it gives up.
* `validate` of a configuration, of derivative options and of a guess: the first parameter that is
  out of range.
-/

namespace RealRoots

/-- What the error of a step measures. -/
inductive StoppingRule where
  /-- The length of the step. -/
  | stepSize
  /-- The size of the function value where the step ends. -/
  | residual
  deriving DecidableEq, Repr

namespace StoppingRule

instance : Spelled StoppingRule where
  all := [.stepSize, .residual]
  spelling
    | .stepSize => "step_size"
    | .residual => "residual"

/-- The error of a step from `x` to `next`. A residual is unknown where the function has none. -/
def error (rule : StoppingRule) (x next : Float) (fNext : Option Float) : Option Float :=
  match rule with
  | stepSize => some (next - x).abs
  | residual => fNext.map Float.abs

end StoppingRule

/-- Magnitude below which a divisor counts as zero. -/
def singularityThreshold : Float := 1e-10

/-- Is the double finite and above zero? -/
def isPositive (x : Float) : Bool :=
  x.isFinite && 0 < x

/-- When a run has converged, and when it gives up. -/
structure SolverConfig where
  /-- An error below this has converged. -/
  tolerance : Float := 1e-4
  maxIterations : Nat := 50
  stoppingRule : StoppingRule := .stepSize
  deriving DecidableEq

namespace SolverConfig

def default : SolverConfig := {}

instance : Stored SolverConfig where
  write c := .object [("tolerance", write c.tolerance), ("max_iterations", write c.maxIterations),
    ("stopping_rule", write c.stoppingRule)]
  read? := Json.readFields [] ["tolerance", "max_iterations", "stopping_rule"] fun value => do
    some {
      tolerance := ← value.orElse "tolerance" default.tolerance
      maxIterations := ← value.orElse "max_iterations" default.maxIterations
      stoppingRule := ← value.orElse "stopping_rule" default.stoppingRule }

def validate (c : SolverConfig) : Except SolverError Unit := do
  unless isPositive c.tolerance do
    throw (.invalidParameter "tolerance" (plain c.tolerance)
      "Tolerance must be a positive finite number")
  if c.maxIterations = 0 then
    throw (.invalidParameter "max_iterations" "0" "Maximum iterations must be positive")

/-- An error equal to the tolerance has not converged. -/
def isConverged (c : SolverConfig) (error : Float) : Bool :=
  error < c.tolerance

end SolverConfig

def DerivativeOptions.validate (o : DerivativeOptions) : Except SolverError Unit :=
  unless isPositive o.step do
    throw (.invalidParameter "derivative_step" (plain o.step)
      "Derivative step must be a positive finite number")

/-- A guess has to be finite. -/
def validateGuess (field : String) (guess : Float) : Except SolverError Unit :=
  unless guess.isFinite do
    throw (.invalidParameter field (plain guess) "Initial guess must be a finite number")

/-- The formula of a text, for a run. -/
def readFormula (text : String) : Except SolverError Formula :=
  (Formula.read text).mapError (.ofFormulaError text)

end RealRoots
