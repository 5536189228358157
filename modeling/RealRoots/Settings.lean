import RealRoots.Sampling
import RealRoots.Solver.Config

/-!
# Settings

A settings file holds the values that apply where a command does not say otherwise. Every key may be
missing.
-/

namespace RealRoots

structure Settings where
  tolerance : Float := 1e-4
  maxIterations : Nat := 50
  stoppingRule : StoppingRule := .stepSize
  derivativeMethod : Differentiation := .centralDifference
  derivativeStep : Float := 1e-7
  recordFinalPoint : Bool := false
  samplePoints : Nat := defaultPoints
  plotPadding : Float := defaultPadding
  deriving DecidableEq

namespace Settings

def default : Settings := {}

instance : Stored Settings where
  write s := .object [("tolerance", write s.tolerance), ("max_iterations", write s.maxIterations),
    ("stopping_rule", write s.stoppingRule), ("derivative_method", write s.derivativeMethod),
    ("derivative_step", write s.derivativeStep),
    ("record_final_point", write s.recordFinalPoint), ("sample_points", write s.samplePoints),
    ("plot_padding", write s.plotPadding)]
  read? := Json.readFields [] ["tolerance", "max_iterations", "stopping_rule", "derivative_method",
      "derivative_step", "record_final_point", "sample_points", "plot_padding"] fun value => do
    some {
      tolerance := ← value.orElse "tolerance" default.tolerance
      maxIterations := ← value.orElse "max_iterations" default.maxIterations
      stoppingRule := ← value.orElse "stopping_rule" default.stoppingRule
      derivativeMethod := ← value.orElse "derivative_method" default.derivativeMethod
      derivativeStep := ← value.orElse "derivative_step" default.derivativeStep
      recordFinalPoint := ← value.orElse "record_final_point" default.recordFinalPoint
      samplePoints := ← value.orElse "sample_points" default.samplePoints
      plotPadding := ← value.orElse "plot_padding" default.plotPadding }

def solverConfig (s : Settings) : SolverConfig :=
  { tolerance := s.tolerance, maxIterations := s.maxIterations, stoppingRule := s.stoppingRule }

def derivativeOptions (s : Settings) : DerivativeOptions :=
  { method := s.derivativeMethod, step := s.derivativeStep }

def validate (s : Settings) : Except SolverError Unit := do
  s.solverConfig.validate
  s.derivativeOptions.validate

end Settings

end RealRoots
