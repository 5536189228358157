import RealRoots.Solver.Observer

/-!
# Iteration

Both methods divide by something, update the iterate by the quotient and look where it landed. A
`Scheme` says how a method does this from what it keeps between passes, and `iterate` runs it.

* `Scheme.advance`: one pass. The step is recorded before the function value at its end is needed,
  so a step that leaves the domain of the formula is still in the history.
* `Scheme.iterate`: passes until one converges or fails, an observer stops the run, or the budget is
  spent.
* `Run.toResult`: a run as it is reported.
-/

namespace RealRoots

/-- A point of the graph. -/
structure Point where
  x : Float
  fx : Float
  deriving DecidableEq

/-- A method, by what it does in one pass with the state `S` it keeps between passes. -/
structure Scheme (S : Type) where
  method : Method
  /-- The current iterate. -/
  point : S → Point
  /-- What the pass divides by. -/
  divisor : S → Except SolverError Float
  /-- The error that a divisor is too small. -/
  singular : S → Float → SolverError
  /-- The next iterate. -/
  update : S → Float → Float
  /-- The divisor, if it is a derivative. -/
  derivative : Float → Option Float
  /-- The state at the next point. -/
  shift : S → Point → S

/-- A pass that took a step. -/
structure Advance where
  record : Iteration
  next : Float
  /-- The function value at the next iterate. -/
  value : Except EvalError Float

/-- How a run ended. -/
inductive Ending where
  | converged (root : Float) (value : Option Float)
  | failed (error : SolverError)
  deriving DecidableEq

/-- A finished run, without the formula and configuration it was run with. -/
structure Run where
  history : List Iteration
  ending : Ending
  total : Nat
  deriving DecidableEq

namespace Run

/-- A run that fails before it records anything. -/
def failing (error : SolverError) (total : Nat) : Run :=
  ⟨[], .failed error, total⟩

/-- The run with records before its own. -/
def after (run : Run) (records : List Iteration) : Run :=
  { run with history := records ++ run.history }

/-- The run as it is reported. -/
def toResult (run : Run) (method : Method) (f : Formula) (config : SolverConfig) : RootResult :=
  let (root, value, failure) :=
    match run.ending with
    | .converged root value => (some root, value, none)
    | .failed error => (none, none, some error)
  { method
    expression := f.source
    converged := root.isSome
    root
    functionValue := value
    iterations := run.history
    totalIterations := run.total
    errorKind := failure.map SolverError.kind
    failure
    convergenceRate := RealRoots.convergenceRate run.history
    tolerance := config.tolerance
    maxIterations := config.maxIterations }

end Run

namespace Scheme

variable {S σ : Type}

/-- What an observer is shown before the pass. -/
def step (scheme : Scheme S) (iteration : Nat) (s : S) : Step :=
  ⟨scheme.method, iteration, (scheme.point s).x, (scheme.point s).fx⟩

/-- One pass. -/
def advance (scheme : Scheme S) (f : Formula) (rule : StoppingRule) (iteration : Nat) (s : S) :
    Except SolverError Advance := do
  let here := scheme.point s
  let divisor ← scheme.divisor s
  if divisor.abs < singularityThreshold then
    throw (scheme.singular s divisor)
  let next := scheme.update s divisor
  unless next.isFinite do
    throw (.evaluation here.x "update produced a non-finite iterate")
  let value := f.eval next
  .ok {
    record := {
      index := iteration + scheme.method.extraRecords
      x := here.x
      fx := here.fx
      derivative := scheme.derivative divisor
      nextX := some next
      error := rule.error here.x next value.toOption }
    next
    value }

/-- At most `budget` passes, the first of which has number `iteration`. -/
def iterate (scheme : Scheme S) (f : Formula) (config : SolverConfig) (observer : Observer σ) :
    (budget iteration : Nat) → S → σ → Run × σ
  | 0, _, _, o => (.failing (.maxIterationsReached config.maxIterations) config.maxIterations, o)
  | budget + 1, iteration, s, o =>
    match observer.look o (scheme.step iteration s) with
    | (.stop, o) => (.failing (.cancelled iteration) iteration, o)
    | (.proceed, o) =>
      match scheme.advance f config.stoppingRule iteration s with
      | .error e => (.failing e iteration, o)
      | .ok pass =>
        if pass.record.error.any config.isConverged then
          (⟨[pass.record], .converged pass.next pass.value.toOption, iteration + 1⟩, o)
        else
          match pass.value with
          | .error e => (⟨[pass.record], .failed (.ofEvalError e), iteration + 1⟩, o)
          | .ok value =>
            let (run, o) :=
              scheme.iterate f config observer budget (iteration + 1)
                (scheme.shift s ⟨pass.next, value⟩) o
            (run.after [pass.record], o)

end Scheme

end RealRoots
