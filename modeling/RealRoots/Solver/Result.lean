import RealRoots.Solver.Config

/-!
# Records and results of a run

* `Method`: the two methods.
* `Iteration`: what is recorded of one pass.
* `RootResult`: a finished run as it is reported and stored.
* `convergenceRate`: the order of convergence, estimated from the last three steps.
-/

namespace RealRoots

inductive Method where
  | newtonRaphson
  | secant
  deriving DecidableEq, Repr

namespace Method

instance : Spelled Method where
  all := [newtonRaphson, secant]
  spelling
    | newtonRaphson => "newton_raphson"
    | secant => "secant"

def name : Method → String
  | newtonRaphson => "Newton-Raphson"
  | secant => "Secant"

/-- The number of records a run may hold beyond its iterations. The secant method starts from two
points, of which one counts as the first iteration. -/
def extraRecords : Method → Nat
  | newtonRaphson => 0
  | secant => 1

end Method

/-- What is recorded of one pass. Only Newton-Raphson records a derivative. The error is absent
where no step led to the record or the rule gave none. -/
structure Iteration where
  index : Nat
  x : Float
  fx : Float
  derivative : Option Float := none
  nextX : Option Float := none
  error : Option Float := none
  deriving DecidableEq

namespace Iteration

/-- The length of the step, if the record took one. -/
def stepSize (it : Iteration) : Option Float :=
  it.nextX.map fun next => (next - it.x).abs

instance : Stored Iteration where
  write it := .object <|
    [("index", write it.index), ("x", write it.x), ("fx", write it.fx)] ++
      (it.derivative.map fun d => ("derivative", write d)).toList ++
      (it.nextX.map fun next => ("next_x", write next)).toList ++ [("error", write it.error)]
  read? := Json.readFields ["index", "x", "fx"] ["derivative", "next_x", "error"] fun value => do
    some {
      index := ← value.required "index"
      x := ← value.required "x"
      fx := ← value.required "fx"
      derivative := ← value.optional "derivative"
      nextX := ← value.optional "next_x"
      error := ← value.optional "error" }

end Iteration

/-- The order of convergence `ln (e3 / e2) / ln (e2 / e1)` that the last three step sizes suggest,
oldest first. There is none where a step has length zero. -/
def convergenceRate (history : List Iteration) : Option Float :=
  match (history.filterMap Iteration.stepSize).reverse with
  | e3 :: e2 :: e1 :: _ =>
    if e1 ≤ 0 || e2 ≤ 0 || e3 ≤ 0 then none
    else
      let rate := (e3 / e2).log / (e2 / e1).log
      if rate.isFinite then some rate else none
  | _ => none

/-- A finished run. -/
structure RootResult where
  method : Method
  expression : String
  converged : Bool
  root : Option Float
  /-- The function value at the root, where there is one. -/
  functionValue : Option Float
  iterations : List Iteration
  totalIterations : Nat
  /-- The time the run took, which only the caller who ran it knows. -/
  executionTimeMs : Float := 0
  errorKind : Option SolverError.Kind
  failure : Option SolverError
  convergenceRate : Option Float
  tolerance : Float
  maxIterations : Nat
  deriving DecidableEq

namespace RootResult

/-- The size of the function value at the root. -/
def accuracy (r : RootResult) : Option Float :=
  r.functionValue.map Float.abs

/-- The last recorded error. -/
def finalError (r : RootResult) : Option Float :=
  r.iterations.reverse.findSome? Iteration.error

/-- Did the update rule break down? -/
def isSingular (r : RootResult) : Bool :=
  r.failure.any SolverError.isSingularity

/-- The outcome in one line. -/
def summary (r : RootResult) : String :=
  match r.root, r.failure with
  | some root, _ =>
    r.method.name ++ " converged to x = " ++ fixed 10 root ++ " in " ++
      toString r.totalIterations ++ " iterations"
  | none, some failure => r.method.name ++ " failed: " ++ failure.message
  | none, none => r.method.name ++ " did not converge"

/-- The result with the time that the run took. -/
def timed (r : RootResult) (milliseconds : Float) : RootResult :=
  { r with executionTimeMs := milliseconds }

/-- The fields of the stored form. -/
def fields (r : RootResult) : List (String × Json) :=
  [("method", write r.method), ("expression", write r.expression),
    ("converged", write r.converged), ("root", write r.root),
    ("function_value", write r.functionValue), ("iterations", write r.iterations),
    ("total_iterations", write r.totalIterations),
    ("execution_time_ms", write r.executionTimeMs), ("error_kind", write r.errorKind),
    ("failure", write r.failure), ("convergence_rate", write r.convergenceRate),
    ("tolerance", write r.tolerance), ("max_iterations", write r.maxIterations)]

def fieldNames : List String :=
  ["method", "expression", "converged", "root", "function_value", "iterations", "total_iterations",
    "execution_time_ms", "error_kind", "failure", "convergence_rate", "tolerance",
    "max_iterations"]

/-- The result with the fields of an object. -/
def ofFields? (value : Json) : Option RootResult := do
  some {
    method := ← value.required "method"
    expression := ← value.required "expression"
    converged := ← value.required "converged"
    root := ← value.optional "root"
    functionValue := ← value.optional "function_value"
    iterations := ← value.required "iterations"
    totalIterations := ← value.required "total_iterations"
    executionTimeMs := ← value.required "execution_time_ms"
    errorKind := ← value.optional "error_kind"
    failure := ← value.optional "failure"
    convergenceRate := ← value.optional "convergence_rate"
    tolerance := ← value.required "tolerance"
    maxIterations := ← value.required "max_iterations" }

instance : Stored RootResult where
  write r := .object r.fields
  read? := Json.readFields fieldNames [] ofFields?

end RootResult

end RealRoots
