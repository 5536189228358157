import RealRoots.Solver.Result

/-!
# Observers

An observer is shown where a run stands before each pass, and may stop the run. It is a state
machine, so that it can count, collect or wait for anything that its state can hold.
-/

namespace RealRoots

/-- Where a run stands before a pass. -/
structure Step where
  method : Method
  iteration : Nat
  x : Float
  fx : Float
  deriving DecidableEq

/-- What an observer answers. -/
inductive Signal where
  | proceed
  | stop
  deriving DecidableEq, Repr

/-- Looks at a step in one state, and answers in the next. -/
structure Observer (σ : Type) where
  look : σ → Step → Signal × σ

namespace Observer

/-- Never stops a run. -/
def silent : Observer Unit :=
  ⟨fun _ _ => (.proceed, ())⟩

/-- Stops a run at once if its state says so. -/
def flag : Observer Bool :=
  ⟨fun raised _ => (if raised then .stop else .proceed, raised)⟩

/-- Collects the steps, the latest first, and stops at the first one that a test accepts. The test
also sees the number of steps so far, this one included. -/
def collecting (stopsAt : Nat → Step → Bool) : Observer (List Step) :=
  ⟨fun seen step =>
    (if stopsAt (seen.length + 1) step then .stop else .proceed, step :: seen)⟩

end Observer

/-- A run over a formula, if that is there, and the last state of its observer. Without the formula
the observer is shown nothing, and keeps its state. -/
def runIfRead {σ : Type} (formula : Except SolverError Formula)
    (run : Formula → σ → RootResult × σ) (o : σ) : Except SolverError RootResult × σ :=
  match formula with
  | .error e => (.error e, o)
  | .ok f => (run f o).map .ok id

end RealRoots
