import RealRoots.Solver.Scheme

/-!
# Secant

`x - f(x) (x - x') / (f(x) - f(x'))` from two guesses, where `x'` is the iterate before `x`. The
state between passes is the last two points.

* `SecantInput.validate`: the first parameter that is out of range.
* `Secant.run`: the run over a formula. Both guesses are recorded before the first pass, and count
  as the first iteration.
* `Secant.solve`: the run over the text of the input. `Secant.solveObserved` also gives the state that
  an observer is left in.
-/

namespace RealRoots

/-- The parameters of a run. -/
structure SecantInput where
  expression : String
  x0 : Float
  x1 : Float
  config : SolverConfig := {}
  deriving DecidableEq

namespace SecantInput

instance : Stored SecantInput where
  write input := .object [("expression", write input.expression), ("x0", write input.x0),
    ("x1", write input.x1), ("config", write input.config)]
  read? := Json.readFields ["expression", "x0", "x1"] ["config"] fun value => do
    some {
      expression := ← value.required "expression"
      x0 := ← value.required "x0"
      x1 := ← value.required "x1"
      config := ← value.orElse "config" .default }

def validate (input : SecantInput) : Except SolverError Unit := do
  validateGuess "x0" input.x0
  validateGuess "x1" input.x1
  if input.x0 == input.x1 then
    throw (.invalidParameter "x1" (plain input.x1) "Second guess must differ from the first")
  input.config.validate

/-- The formula of the text, once the parameters are in range. -/
def formula (input : SecantInput) : Except SolverError Formula := do
  input.validate
  readFormula input.expression

end SecantInput

namespace Secant

/-- The last two points, the earlier one first. -/
structure Pair where
  prev : Point
  curr : Point
  deriving DecidableEq

/-- The update rule. It divides by the difference of the function values. -/
def scheme : Scheme Pair where
  method := .secant
  point pair := pair.curr
  divisor pair := .ok (pair.curr.fx - pair.prev.fx)
  singular pair difference := .nearZeroDenominator pair.prev.x pair.curr.x difference
  update pair difference :=
    pair.curr.x - pair.curr.fx * (pair.curr.x - pair.prev.x) / difference
  derivative _ := none
  shift pair next := ⟨pair.curr, next⟩

/-- The record of the first guess. -/
def firstSeed (p : Point) : Iteration :=
  { index := 0, x := p.x, fx := p.fx }

/-- The record of the second guess, with the error of going there from the first. -/
def secondSeed (rule : StoppingRule) (p q : Point) : Iteration :=
  { index := 1, x := q.x, fx := q.fx, error := rule.error p.x q.x (some q.fx) }

/-- The run over a formula, and the last state of the observer. -/
def runWith {σ : Type} (f : Formula) (input : SecantInput) (observer : Observer σ) (o : σ) :
    RootResult × σ :=
  let config := input.config
  let (run, o) :=
    match f.eval input.x0 with
    | .error e => (Run.failing (.ofEvalError e) 0, o)
    | .ok f0 =>
      let p : Point := ⟨input.x0, f0⟩
      match f.eval input.x1 with
      | .error e => ((Run.failing (.ofEvalError e) 0).after [firstSeed p], o)
      | .ok f1 =>
        let q : Point := ⟨input.x1, f1⟩
        let (run, o) := scheme.iterate f config observer (config.maxIterations - 1) 1 ⟨p, q⟩ o
        (run.after [firstSeed p, secondSeed config.stoppingRule p q], o)
  (run.toResult .secant f config, o)

/-- The run over a formula. -/
def run (f : Formula) (input : SecantInput) : RootResult :=
  (runWith f input .silent ()).1

/-- The run over the text of the input, and the last state of the observer, which is the first one if
the input is refused. -/
def solveObserved {σ : Type} (input : SecantInput) (observer : Observer σ) (o : σ) :
    Except SolverError RootResult × σ :=
  runIfRead input.formula (fun f => runWith f input observer) o

/-- The run over the text of the input with the last state of the observer, or the error alone. -/
def solveWith {σ : Type} (input : SecantInput) (observer : Observer σ) (o : σ) :
    Except SolverError (RootResult × σ) :=
  let (result, o) := solveObserved input observer o
  result.map (·, o)

/-- The run over the text of the input. -/
def solve (input : SecantInput) : Except SolverError RootResult :=
  (solveObserved input .silent ()).1

end Secant

end RealRoots
