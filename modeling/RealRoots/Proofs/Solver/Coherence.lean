import RealRoots.Proofs.Solver.Runs

/-!
# What a result tells of its history

**Theorem (`results_are_coherent`).** A result has a root if it has converged, and a failure with
its kind if not. It counts one iteration for each step of Newton-Raphson, and for the secant method
one for each record but the first. It stays within its iteration limit, and its history within what
the method may record beyond that.

Each way a run can end hands over its own count. So the counts are those of a run of passes first:
the passes fit into the budget (`Scheme.Makes.length_le`), and if the budget is what the iterations
before it leave of the limit, the run has counted them and its own passes
(`Scheme.Makes.total_eq`).
-/

namespace RealRoots

/-! ## The passes of a run -/

namespace Scheme.Makes

variable {S : Type} {scheme : Scheme S} {f : Formula} {config : SolverConfig}
  {budget iteration : Nat} {s : S} {run : Run}

/-- A run makes no more passes than its budget allows. -/
theorem length_le (h : Makes scheme f config budget iteration s run) :
    run.history.length ≤ budget := by
  induction h with
  | exhausted | cancelled | breaks => exact Nat.zero_le _
  | converges | leaves => exact Nat.succ_le_succ (Nat.zero_le _)
  | goes _ _ _ _ ih => exact Nat.succ_le_succ ih

/-- **The count of a run.** Its budget is what the iterations before it leave of the limit. -/
theorem total_eq (h : Makes scheme f config budget iteration s run)
    (hbudget : iteration + budget = config.maxIterations) :
    run.total = iteration + run.history.length := by
  induction h with
  | exhausted => exact hbudget.symm
  | cancelled | breaks | converges | leaves => rfl
  | @goes budget iteration _ _ _ run _ _ _ _ ih =>
    have hrest : run.total = iteration + 1 + run.history.length := ih (by omega)
    show run.total = iteration + (run.history.length + 1)
    omega

end Scheme.Makes

/-! ## Results -/

/-- **A result does not contradict itself.** It has a root if it has converged, and a failure if
not. Neither its count nor its history is longer than its limit allows. -/
structure RootResult.Coherent (r : RootResult) : Prop where
  root_iff : r.root.isSome ↔ r.converged
  failure_iff : r.failure = none ↔ r.converged
  errorKind_iff : r.errorKind = none ↔ r.converged
  errorKind_eq : r.errorKind = r.failure.map SolverError.kind
  converged_of_functionValue : r.functionValue.isSome → r.converged
  total_le : r.totalIterations ≤ r.maxIterations
  length_le : r.iterations.length ≤ r.maxIterations + r.method.extraRecords

namespace Run

variable {run : Run} {method : Method} {f : Formula} {config : SolverConfig}

@[simp] theorem toResult_method : (run.toResult method f config).method = method := by
  unfold toResult
  split
  rfl

@[simp] theorem toResult_maxIterations :
    (run.toResult method f config).maxIterations = config.maxIterations := by
  unfold toResult
  split
  rfl

/-- A run is reported coherently, however it ended. -/
theorem coherent_toResult (htotal : run.total ≤ config.maxIterations)
    (hlength : run.history.length ≤ config.maxIterations + method.extraRecords) :
    (run.toResult method f config).Coherent := by
  constructor
  case total_le => rwa [toResult_totalIterations, toResult_maxIterations]
  case length_le => rwa [toResult_iterations, toResult_maxIterations, toResult_method]
  all_goals
    unfold toResult
    cases run.ending <;> simp

end Run

namespace Newton

/-- The result is coherent. It counts its steps, and at most one record, which takes no step, comes
after them. -/
structure Coherent (input : NewtonInput) (result : RootResult) : Prop
    extends RootResult.Coherent result where
  method_eq : result.method = .newtonRaphson
  maxIterations_eq : result.maxIterations = input.config.maxIterations
  length_le_limit : result.iterations.length ≤ input.config.maxIterations
  total_eq : result.totalIterations = result.steps.length
  history_eq : ∃ final : Option Iteration, result.iterations = result.steps ++ final.toList
  length_le_succ : result.iterations.length ≤ result.totalIterations + 1

/-- The record of the root is only made where the budget has room. -/
theorem length_finish_le (f : Formula) {input : NewtonInput} {run : Run}
    (h : run.history.length ≤ input.config.maxIterations) :
    (finish f input run).history.length ≤ input.config.maxIterations := by
  unfold finish
  split
  · rename_i hroom
    rw [Bool.and_eq_true, decide_eq_true_eq] at hroom
    have hfinal := Option.length_toList_le (o := finalPoint? f input.derivative run)
    rw [List.length_append]
    omega
  · exact h

theorem length_runWith_le {σ : Type} (f : Formula) (input : NewtonInput) (observer : Observer σ)
    (o : σ) : (runWith f input observer o).1.iterations.length ≤ input.config.maxIterations := by
  unfold runWith
  cases f.eval input.x0 with
  | error e =>
    rw [Run.toResult_iterations]
    exact length_finish_le f (Nat.zero_le _)
  | ok value =>
    rw [Run.toResult_iterations]
    apply length_finish_le f
    exact ((scheme f input.derivative).iterate_makes f input.config observer
      input.config.maxIterations 0 ⟨input.x0, value⟩ o).length_le

theorem coherent {σ : Type} (f : Formula) (input : NewtonInput) (observer : Observer σ) (o : σ) :
    Coherent input (runWith f input observer o).1 := by
  have hlength := length_runWith_le f input observer o
  rcases runWith_cases f input observer o with ⟨e, -, hresult⟩ |
    ⟨value, run, history, -, hmakes, hsteps, ⟨final, hhistory, -⟩, hresult⟩ <;>
    rw [hresult] at hlength ⊢ <;> rw [Run.toResult_iterations] at hlength
  · exact {
      Run.coherent_toResult (Nat.zero_le _) (Nat.zero_le _) with
      method_eq := Run.toResult_method
      maxIterations_eq := Run.toResult_maxIterations
      length_le_limit := hlength
      total_eq := rfl
      history_eq := ⟨none, rfl⟩
      length_le_succ := Nat.zero_le _ }
  · have htotal : run.total = run.history.length := by
      rw [hmakes.total_eq (Nat.zero_add _), Nat.zero_add]
    have hpasses := hmakes.length_le
    have hfinal := Option.length_toList_le (o := final)
    have hcoherent : (Run.toResult { run with history } .newtonRaphson f input.config).Coherent :=
      Run.coherent_toResult (by rwa [htotal]) hlength
    exact {
      hcoherent with
      method_eq := Run.toResult_method
      maxIterations_eq := Run.toResult_maxIterations
      length_le_limit := by rwa [Run.toResult_iterations]
      total_eq := by rw [Run.toResult_totalIterations, hsteps.steps_toResult, htotal]
      history_eq := ⟨final, by rw [Run.toResult_iterations, hsteps.steps_toResult, hhistory]⟩
      length_le_succ := by
        rw [Run.toResult_iterations, Run.toResult_totalIterations, hhistory, List.length_append,
          htotal]
        omega }

end Newton

namespace Secant

/-- The result is coherent. It counts its records but the first. -/
structure Coherent (input : SecantInput) (result : RootResult) : Prop
    extends RootResult.Coherent result where
  method_eq : result.method = .secant
  maxIterations_eq : result.maxIterations = input.config.maxIterations
  length_le_limit : result.iterations.length ≤ input.config.maxIterations + 1
  total_eq : result.totalIterations = result.iterations.length - 1

/-- A run that fails at a guess counts no iteration. -/
theorem coherent_of_failing {f : Formula} {input : SecantInput} {e : SolverError}
    {history : List Iteration} (hlength : history.length ≤ 1) :
    Coherent input (Run.toResult { Run.failing e 0 with history } .secant f input.config) := by
  have hlimit : history.length ≤ input.config.maxIterations + 1 := by omega
  exact {
    Run.coherent_toResult (Nat.zero_le _) hlimit with
    method_eq := Run.toResult_method
    maxIterations_eq := Run.toResult_maxIterations
    length_le_limit := hlimit
    total_eq := (Nat.sub_eq_zero_of_le hlength).symm }

theorem coherent {σ : Type} (f : Formula) {input : SecantInput} (h : input.validate = .ok ())
    (observer : Observer σ) (o : σ) : Coherent input (runWith f input observer o).1 := by
  obtain ⟨-, -, -, -, hlimit⟩ := SecantInput.validate_eq_ok.1 h
  rcases runWith_cases f input observer o with ⟨e, -, hresult⟩ | ⟨f0, e, -, -, hresult⟩ |
    ⟨f0, f1, run, history, -, -, hmakes, -, hhistory, hresult⟩ <;> rw [hresult]
  · exact coherent_of_failing (Nat.zero_le _)
  · exact coherent_of_failing (Nat.le_refl _)
  · -- The two guesses count as the first iteration.
    have htotal : run.total = 1 + run.history.length := hmakes.total_eq (by omega)
    have hpasses := hmakes.length_le
    have hlength : history.length = run.history.length + 2 := by rw [hhistory]; rfl
    have hbound : history.length ≤ input.config.maxIterations + 1 := by omega
    have hcoherent : (Run.toResult { run with history } .secant f input.config).Coherent :=
      Run.coherent_toResult (by rw [htotal]; omega) hbound
    exact {
      hcoherent with
      method_eq := Run.toResult_method
      maxIterations_eq := Run.toResult_maxIterations
      length_le_limit := by rwa [Run.toResult_iterations]
      total_eq := by
        rw [Run.toResult_totalIterations, Run.toResult_iterations, htotal, hlength]
        omega }

end Secant

/-- **A result agrees with its own history.** -/
theorem results_are_coherent {σ : Type} (f : Formula) (observer : Observer σ) (o : σ) :
    (∀ input : NewtonInput, Newton.Coherent input (Newton.runWith f input observer o).1) ∧
    ∀ input : SecantInput, input.validate = .ok () →
      Secant.Coherent input (Secant.runWith f input observer o).1 :=
  ⟨fun input => Newton.coherent f input observer o, fun _ h => Secant.coherent f h observer o⟩

/-- The Newton-Raphson run for `x` from `1` counts two steps, and records the root after them. With a
limit of two iterations the secant run from `2` and `1` counts its guesses and one step, and records
all three. -/
theorem coherent_in_two_iterations :
    let f : Formula := ⟨"x", .x⟩
    let newton : NewtonInput := { expression := "x", x0 := 1, recordFinalPoint := true }
    let secant : SecantInput :=
      { expression := "x", x0 := 2, x1 := 1, config := { tolerance := 0.5, maxIterations := 2 } }
    let result := (Newton.runWith f newton .silent ()).1
    let result' := (Secant.runWith f secant .silent ()).1
    (result.totalIterations = 2 ∧ result.iterations.length = 3 ∧ Newton.Coherent newton result) ∧
    secant.validate = .ok () ∧ result'.totalIterations = 2 ∧ result'.iterations.length = 3 ∧
      Secant.Coherent secant result' := by
  intro f newton secant result result'
  have hvalid : secant.validate = .ok () := SecantInput.validate_eq_ok.2 (by decide +kernel)
  refine ⟨⟨by decide +kernel, by decide +kernel, ?_⟩, hvalid, by decide +kernel, by decide +kernel,
    ?_⟩
  · exact (results_are_coherent f .silent ()).1 newton
  · exact (results_are_coherent f .silent ()).2 secant hvalid

end RealRoots
