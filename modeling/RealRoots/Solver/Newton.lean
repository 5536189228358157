import RealRoots.Solver.Scheme

/-!
# Newton-Raphson

`x - f(x) / f'(x)` from one guess. The state between passes is the current point.

* `NewtonInput.validate`: the first parameter that is out of range.
* `Newton.run`: the run over a formula.
* `Newton.solve`: the run over the text of the input. `Newton.solveObserved` also gives the state that
  an observer is left in.
-/

namespace RealRoots

/-- The parameters of a run. -/
structure NewtonInput where
  expression : String
  x0 : Float
  config : SolverConfig := {}
  derivative : DerivativeOptions := {}
  /-- Whether to record the root after convergence, if the budget has room. -/
  recordFinalPoint : Bool := false
  deriving DecidableEq

namespace NewtonInput

instance : Stored NewtonInput where
  write input := .object [("expression", write input.expression), ("x0", write input.x0),
    ("config", write input.config), ("derivative", write input.derivative),
    ("record_final_point", write input.recordFinalPoint)]
  read? := Json.readFields ["expression", "x0"]
    ["config", "derivative", "record_final_point"] fun value => do
    some {
      expression := ← value.required "expression"
      x0 := ← value.required "x0"
      config := ← value.orElse "config" .default
      derivative := ← value.orElse "derivative" .default
      recordFinalPoint := ← value.orElse "record_final_point" false }

def validate (input : NewtonInput) : Except SolverError Unit := do
  validateGuess "x0" input.x0
  input.config.validate
  input.derivative.validate

/-- The formula of the text, once the parameters are in range. -/
def formula (input : NewtonInput) : Except SolverError Formula := do
  input.validate
  readFormula input.expression

end NewtonInput

namespace Newton

/-- The update rule. It divides by the derivative. -/
def scheme (f : Formula) (options : DerivativeOptions) : Scheme Point where
  method := .newtonRaphson
  point := id
  divisor here := (f.slope options here.x).mapError .ofEvalError
  singular here derivative := .derivativeNearZero here.x derivative
  update here derivative := here.x - here.fx / derivative
  derivative := some
  shift _ next := next

/-- The record of the root: its function value and derivative, where there are both. -/
def finalPoint? (f : Formula) (options : DerivativeOptions) (run : Run) : Option Iteration :=
  match run.ending with
  | .converged root (some value) =>
    (f.slope options root).toOption.map fun derivative =>
      { index := run.total, x := root, fx := value, derivative := some derivative }
  | _ => none

/-- The run with the record of the root, if one was asked for and the budget has room. -/
def finish (f : Formula) (input : NewtonInput) (run : Run) : Run :=
  if input.recordFinalPoint && run.history.length < input.config.maxIterations then
    { run with history := run.history ++ (finalPoint? f input.derivative run).toList }
  else run

/-- The run over a formula, and the last state of the observer. -/
def runWith {σ : Type} (f : Formula) (input : NewtonInput) (observer : Observer σ) (o : σ) :
    RootResult × σ :=
  let (run, o) :=
    match f.eval input.x0 with
    | .error e => (Run.failing (.ofEvalError e) 0, o)
    | .ok value =>
      (scheme f input.derivative).iterate f input.config observer input.config.maxIterations 0
        ⟨input.x0, value⟩ o
  ((finish f input run).toResult .newtonRaphson f input.config, o)

/-- The run over a formula. -/
def run (f : Formula) (input : NewtonInput) : RootResult :=
  (runWith f input .silent ()).1

/-- The run over the text of the input, and the last state of the observer, which is the first one if
the input is refused. -/
def solveObserved {σ : Type} (input : NewtonInput) (observer : Observer σ) (o : σ) :
    Except SolverError RootResult × σ :=
  runIfRead input.formula (fun f => runWith f input observer) o

/-- The run over the text of the input with the last state of the observer, or the error alone. -/
def solveWith {σ : Type} (input : NewtonInput) (observer : Observer σ) (o : σ) :
    Except SolverError (RootResult × σ) :=
  let (result, o) := solveObserved input observer o
  result.map (·, o)

/-- The run over the text of the input. -/
def solve (input : NewtonInput) : Except SolverError RootResult :=
  (solveObserved input .silent ()).1

end Newton

end RealRoots
