import RealRoots.Proofs.Results
import RealRoots.Solver.Newton
import RealRoots.Solver.Secant

/-!
# Valid parameters

What the checks of the parameters of a run let through.
-/

namespace RealRoots

theorem validateGuess_eq_ok {field : String} {guess : Float} :
    validateGuess field guess = .ok () ↔ guess.isFinite := by
  unfold validateGuess
  split
  · exact ⟨fun _ => ‹_›, fun _ => rfl⟩
  · exact ⟨fun h => (by cases h), fun h => absurd h ‹_›⟩

theorem SolverConfig.validate_eq_ok {config : SolverConfig} :
    config.validate = .ok () ↔ isPositive config.tolerance ∧ config.maxIterations ≠ 0 := by
  unfold validate
  by_cases htolerance : isPositive config.tolerance
  · by_cases hzero : config.maxIterations = 0
    · simp [htolerance, hzero, throw_eq_error]
    · simp [htolerance, hzero]
      rfl
  · simp [htolerance, throw_eq_error, error_bind]

theorem DerivativeOptions.validate_eq_ok {options : DerivativeOptions} :
    options.validate = .ok () ↔ isPositive options.step := by
  unfold validate
  split
  · exact ⟨fun _ => ‹_›, fun _ => rfl⟩
  · exact ⟨fun h => (by cases h), fun h => absurd h ‹_›⟩

theorem NewtonInput.validate_eq_ok {input : NewtonInput} :
    input.validate = .ok () ↔ input.x0.isFinite ∧
      (isPositive input.config.tolerance ∧ input.config.maxIterations ≠ 0) ∧
      isPositive input.derivative.step := by
  unfold validate
  rw [both_eq_ok, both_eq_ok, validateGuess_eq_ok, SolverConfig.validate_eq_ok,
    DerivativeOptions.validate_eq_ok]

theorem SecantInput.validate_eq_ok {input : SecantInput} :
    input.validate = .ok () ↔ input.x0.isFinite ∧ input.x1.isFinite ∧ ¬ input.x0 == input.x1 ∧
      isPositive input.config.tolerance ∧ input.config.maxIterations ≠ 0 := by
  unfold validate
  rw [both_eq_ok, both_eq_ok, validateGuess_eq_ok, validateGuess_eq_ok,
    ← SolverConfig.validate_eq_ok]
  by_cases heq : input.x0 == input.x1
  · simp [heq, throw_eq_error, error_bind]
  · simp [heq]

end RealRoots
