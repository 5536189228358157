import RealRoots.Expr.Error

/-!
# What ends a run without a root

* `SolverError`: a parameter or a text that is refused before a run, or what stopped a run.
* `SolverError.Kind`: the same without the particulars.

Each error has a message, a code, a piece of advice and a stored form.
-/

namespace RealRoots

inductive SolverError where
  /-- The text is no formula. -/
  | invalidExpression (expression reason : String)
  /-- A parameter is out of range. -/
  | invalidParameter (field value reason : String)
  /-- The formula has no value where a run needs one. -/
  | evaluation (x : Float) (reason : String)
  /-- The derivative at `x` is too small to divide by. -/
  | derivativeNearZero (x derivative : Float)
  /-- Two function values are too close to divide by their difference. -/
  | nearZeroDenominator (xPrev xCurr difference : Float)
  /-- The iterations ran out. -/
  | maxIterationsReached (maxIterations : Nat)
  /-- An observer stopped the run. -/
  | cancelled (iteration : Nat)
  deriving DecidableEq

namespace SolverError

inductive Kind where
  | invalidExpression | invalidParameter | evaluation | derivativeNearZero | nearZeroDenominator
  | maxIterationsReached | cancelled
  deriving DecidableEq, Repr

instance : Spelled Kind where
  all := [.invalidExpression, .invalidParameter, .evaluation, .derivativeNearZero,
    .nearZeroDenominator, .maxIterationsReached, .cancelled]
  spelling
    | .invalidExpression => "InvalidExpression"
    | .invalidParameter => "InvalidParameters"
    | .evaluation => "Evaluation"
    | .derivativeNearZero => "DerivativeNearZero"
    | .nearZeroDenominator => "NearZeroDenominator"
    | .maxIterationsReached => "MaxIterationsReached"
    | .cancelled => "Cancelled"

def kind : SolverError → Kind
  | invalidExpression .. => .invalidExpression
  | invalidParameter .. => .invalidParameter
  | evaluation .. => .evaluation
  | derivativeNearZero .. => .derivativeNearZero
  | nearZeroDenominator .. => .nearZeroDenominator
  | maxIterationsReached .. => .maxIterationsReached
  | cancelled .. => .cancelled

/-- Did the update rule itself break down? -/
def isSingularity (e : SolverError) : Bool :=
  e.kind = .derivativeNearZero || e.kind = .nearZeroDenominator

def message : SolverError → String
  | invalidExpression expression reason =>
    "Invalid expression '" ++ expression ++ "': " ++ reason
  | invalidParameter field value reason =>
    "Invalid parameter '" ++ field ++ "': " ++ value ++ " - " ++ reason
  | evaluation x reason => "Evaluation failed at x = " ++ plain x ++ ": " ++ reason
  | derivativeNearZero x derivative =>
    "Derivative too close to zero at x = " ++ plain x ++ " (f'(x) = " ++ scientific derivative ++
      ")"
  | nearZeroDenominator xPrev xCurr difference =>
    "Near-zero denominator between x = " ++ plain xPrev ++ " and x = " ++ plain xCurr ++
      " (difference " ++ scientific difference ++ ")"
  | maxIterationsReached maxIterations =>
    "Failed to converge within " ++ toString maxIterations ++ " iterations"
  | cancelled iteration => "Cancelled by caller at iteration " ++ toString iteration

/-- A short name for programs that handle the error. -/
def Kind.code : Kind → String
  | invalidExpression => "INVALID_EXPRESSION"
  | invalidParameter => "INVALID_PARAMETERS"
  | evaluation => "EVALUATION_ERROR"
  | derivativeNearZero => "DERIVATIVE_NEAR_ZERO"
  | nearZeroDenominator => "NEAR_ZERO_DENOMINATOR"
  | maxIterationsReached => "MAX_ITERATIONS_REACHED"
  | cancelled => "CANCELLED"

/-- What to try next. -/
def Kind.guidance : Kind → String
  | invalidExpression =>
    "Check the function syntax; only x, pi, e and the built-in functions are allowed"
  | invalidParameter =>
    "Use a positive tolerance, a positive iteration limit and two distinct guesses"
  | evaluation => "The function is undefined near the iterates; try a different initial guess"
  | derivativeNearZero | nearZeroDenominator =>
    "The update rule became singular; try a different initial guess"
  | maxIterationsReached => "Raise the iteration limit or loosen the tolerance"
  | cancelled => "The run was stopped before it finished"

def code (e : SolverError) : String := e.kind.code

def guidance (e : SolverError) : String := e.kind.guidance

/-- The formula has no value at the `x` of the error. -/
def ofEvalError (e : EvalError) : SolverError :=
  evaluation e.x e.message

/-- The text is no formula, for the given reason. -/
def ofFormulaError (text : String) (e : FormulaError) : SolverError :=
  invalidExpression text e.message

/-- The fields of the stored form. -/
def details : SolverError → List (String × Json)
  | invalidExpression expression reason =>
    [("expression", write expression), ("reason", write reason)]
  | invalidParameter field value reason =>
    [("field", write field), ("value", write value), ("reason", write reason)]
  | evaluation x reason => [("x", write x), ("reason", write reason)]
  | derivativeNearZero x derivative => [("x", write x), ("derivative", write derivative)]
  | nearZeroDenominator xPrev xCurr difference =>
    [("x_prev", write xPrev), ("x_curr", write xCurr), ("difference", write difference)]
  | maxIterationsReached maxIterations => [("max_iterations", write maxIterations)]
  | cancelled iteration => [("iteration", write iteration)]

/-- The error of that kind with those fields. -/
def ofDetails? (kind : Kind) (details : Json) : Option SolverError :=
  match kind with
  | .invalidExpression => do
    some (invalidExpression (← details.required "expression") (← details.required "reason"))
  | .invalidParameter => do
    some (invalidParameter (← details.required "field") (← details.required "value")
      (← details.required "reason"))
  | .evaluation => do some (evaluation (← details.required "x") (← details.required "reason"))
  | .derivativeNearZero => do
    some (derivativeNearZero (← details.required "x") (← details.required "derivative"))
  | .nearZeroDenominator => do
    some (nearZeroDenominator (← details.required "x_prev") (← details.required "x_curr")
      (← details.required "difference"))
  | .maxIterationsReached => do
    some (maxIterationsReached (← details.required "max_iterations"))
  | .cancelled => do some (cancelled (← details.required "iteration"))

instance : Stored SolverError where
  write e := .tagged (Spelled.spelling e.kind) e.details
  read? value := do
    let (kind, details) ← value.kind?
    ofDetails? (← ofSpelling? Kind kind) details

end SolverError

end RealRoots
