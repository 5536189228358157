import RealRoots.Proofs.Solver.NewtonOrbit
import RealRoots.Proofs.Solver.SecantOrbit

/-!
# The runs of both methods

A run evaluates its guesses, makes its passes and reports them. `Newton.runWith_cases` and
`Secant.runWith_cases` say all that a result can be, whatever the observer.

* `RootResult.steps`: the records of a result that took a step, which are those of its passes.
* `Newton.runWith_of_ok`, `Secant.runWith_of_ok`: the result and the observer's last state, for
  guesses with a function value. The equations beside them are for guesses without one.
-/

namespace RealRoots

/-- The records that took a step. -/
def RootResult.steps (r : RootResult) : List Iteration :=
  r.iterations.filter fun it => it.nextX.isSome

/-- The passes of a run are the records of a history that took a step. -/
def Run.IsStepsOf (run : Run) (history : List Iteration) : Prop :=
  history.filter (fun it => it.nextX.isSome) = run.history

namespace Run

variable {run : Run} {history : List Iteration} {method : Method} {f : Formula}
  {config : SolverConfig}

theorem IsStepsOf.steps_toResult (h : run.IsStepsOf history) :
    (toResult { run with history } method f config).steps = run.history := by
  rw [RootResult.steps, toResult_iterations]
  exact h

end Run

/-- Every record of a run of passes is a step. -/
theorem Scheme.Makes.isStepsOf {S : Type} {scheme : Scheme S} {f : Formula} {config : SolverConfig}
    {budget iteration : Nat} {s : S} {run : Run}
    (h : scheme.Makes f config budget iteration s run) : run.IsStepsOf run.history := by
  rw [Run.IsStepsOf, List.filter_eq_self]
  intro it hit
  obtain ⟨next, hnext, -⟩ := h.step_of_mem hit
  rw [hnext]
  rfl

namespace Newton

/-- The record of the root takes no step. -/
theorem isStepsOf_finish (f : Formula) (input : NewtonInput) {run : Run}
    (h : run.IsStepsOf run.history) : run.IsStepsOf (finish f input run).history := by
  obtain ⟨final, hfinish, hfinal⟩ := finish_eq f input run
  rw [hfinish, Run.IsStepsOf, List.filter_append, h]
  cases final with
  | none => exact List.append_nil _
  | some r =>
    obtain ⟨root, value, d, -, -, rfl⟩ := finalPoint?_eq_some.1 (hfinal r rfl).2
    exact List.append_nil _

section

variable {σ : Type} {f : Formula} (input : NewtonInput) {observer : Observer σ} {o : σ}

theorem runWith_of_error {e : EvalError} (h : f.eval input.x0 = .error e) :
    runWith f input observer o =
      ((Run.failing (.ofEvalError e) 0).toResult .newtonRaphson f input.config, o) := by
  unfold runWith
  simp only [h, finish_failing]

theorem runWith_of_ok {value : Float} (h : f.eval input.x0 = .ok value) {run : Run} {last : σ}
    (hrun : (scheme f input.derivative).iterate f input.config observer input.config.maxIterations 0
      ⟨input.x0, value⟩ o = (run, last)) :
    runWith f input observer o =
      ((finish f input run).toResult .newtonRaphson f input.config, last) := by
  unfold runWith
  simp only [h, hrun]

/-- Where the record of the root was not asked for, the run is reported as it is. -/
theorem runWith_of_not_asked (hasked : input.recordFinalPoint = false) {value : Float}
    (h : f.eval input.x0 = .ok value) {run : Run} {last : σ}
    (hrun : (scheme f input.derivative).iterate f input.config observer input.config.maxIterations 0
      ⟨input.x0, value⟩ o = (run, last)) :
    runWith f input observer o = (run.toResult .newtonRaphson f input.config, last) := by
  have hfinish : finish f input run = run := by
    unfold finish
    rw [hasked, Bool.false_and]
    rfl
  rw [runWith_of_ok input h hrun, hfinish]

end

/-- A result is that of a guess without a function value, or it reports the passes from the guess
and perhaps the record of the root. -/
theorem runWith_cases {σ : Type} (f : Formula) (input : NewtonInput) (observer : Observer σ)
    (o : σ) :
    (∃ e, f.eval input.x0 = .error e ∧ (runWith f input observer o).1 =
      (Run.failing (.ofEvalError e) 0).toResult .newtonRaphson f input.config) ∨
    ∃ value run history, f.eval input.x0 = .ok value ∧
      (scheme f input.derivative).Makes f input.config input.config.maxIterations 0
        ⟨input.x0, value⟩ run ∧
      run.IsStepsOf history ∧
      (∃ final : Option Iteration, history = run.history ++ final.toList ∧
        ∀ r, final = some r → finalPoint? f input.derivative run = some r) ∧
      (runWith f input observer o).1 =
        Run.toResult { run with history } .newtonRaphson f input.config := by
  unfold runWith
  cases hvalue : f.eval input.x0 with
  | error e =>
    refine .inl ⟨e, rfl, ?_⟩
    simp only [finish_failing]
  | ok value =>
    have hmakes := (scheme f input.derivative).iterate_makes f input.config observer
      input.config.maxIterations 0 ⟨input.x0, value⟩ o
    obtain ⟨final, hfinish, hfinal⟩ := finish_eq f input
      ((scheme f input.derivative).iterate f input.config observer input.config.maxIterations 0
        ⟨input.x0, value⟩ o).1
    refine .inr ⟨value, _, _, rfl, hmakes, ?_, ⟨final, rfl, fun r hr => (hfinal r hr).2⟩, ?_⟩
    · have hsteps := isStepsOf_finish f input hmakes.isStepsOf
      rwa [hfinish] at hsteps
    · rw [← hfinish]

end Newton

namespace Secant

section

variable {σ : Type} {f : Formula} (input : SecantInput) {observer : Observer σ} {o : σ}

theorem runWith_of_first_error {e : EvalError} (h : f.eval input.x0 = .error e) :
    runWith f input observer o =
      ((Run.failing (.ofEvalError e) 0).toResult .secant f input.config, o) := by
  unfold runWith
  simp only [h]

theorem runWith_of_second_error {f0 : Float} {e : EvalError} (h0 : f.eval input.x0 = .ok f0)
    (h1 : f.eval input.x1 = .error e) :
    runWith f input observer o =
      (((Run.failing (.ofEvalError e) 0).after [firstSeed ⟨input.x0, f0⟩]).toResult .secant f
        input.config, o) := by
  unfold runWith
  simp only [h0, h1]

theorem runWith_of_ok {f0 f1 : Float} (h0 : f.eval input.x0 = .ok f0)
    (h1 : f.eval input.x1 = .ok f1) {run : Run} {last : σ}
    (hrun : scheme.iterate f input.config observer (input.config.maxIterations - 1) 1
      ⟨⟨input.x0, f0⟩, ⟨input.x1, f1⟩⟩ o = (run, last)) :
    runWith f input observer o =
      ((run.after [firstSeed ⟨input.x0, f0⟩,
        secondSeed input.config.stoppingRule ⟨input.x0, f0⟩ ⟨input.x1, f1⟩]).toResult .secant f
        input.config, last) := by
  unfold runWith
  simp only [h0, h1, hrun]

end

/-- A result is that of a guess without a function value, or it reports the two guesses and the
passes from them. -/
theorem runWith_cases {σ : Type} (f : Formula) (input : SecantInput) (observer : Observer σ)
    (o : σ) :
    (∃ e, f.eval input.x0 = .error e ∧ (runWith f input observer o).1 =
      (Run.failing (.ofEvalError e) 0).toResult .secant f input.config) ∨
    (∃ f0 e, f.eval input.x0 = .ok f0 ∧ f.eval input.x1 = .error e ∧
      (runWith f input observer o).1 =
        Run.toResult { Run.failing (.ofEvalError e) 0 with history := [firstSeed ⟨input.x0, f0⟩] }
          .secant f input.config) ∨
    ∃ f0 f1 run history, f.eval input.x0 = .ok f0 ∧ f.eval input.x1 = .ok f1 ∧
      scheme.Makes f input.config (input.config.maxIterations - 1) 1
        ⟨⟨input.x0, f0⟩, ⟨input.x1, f1⟩⟩ run ∧
      run.IsStepsOf history ∧
      history = firstSeed ⟨input.x0, f0⟩ ::
        secondSeed input.config.stoppingRule ⟨input.x0, f0⟩ ⟨input.x1, f1⟩ :: run.history ∧
      (runWith f input observer o).1 =
        Run.toResult { run with history } .secant f input.config := by
  unfold runWith
  cases h0 : f.eval input.x0 with
  | error e => exact .inl ⟨e, rfl, rfl⟩
  | ok f0 =>
    cases h1 : f.eval input.x1 with
    | error e => exact .inr (.inl ⟨f0, e, rfl, rfl, rfl⟩)
    | ok f1 =>
      obtain ⟨run, hrun⟩ : ∃ run, (scheme.iterate f input.config observer
        (input.config.maxIterations - 1) 1 ⟨⟨input.x0, f0⟩, ⟨input.x1, f1⟩⟩ o).1 = run := ⟨_, rfl⟩
      have hmakes := hrun ▸ scheme.iterate_makes f input.config observer
        (input.config.maxIterations - 1) 1 ⟨⟨input.x0, f0⟩, ⟨input.x1, f1⟩⟩ o
      -- The records of the guesses take no step.
      have hsteps : run.IsStepsOf (firstSeed ⟨input.x0, f0⟩ ::
          secondSeed input.config.stoppingRule ⟨input.x0, f0⟩ ⟨input.x1, f1⟩ :: run.history) :=
        hmakes.isStepsOf
      refine .inr (.inr ⟨f0, f1, run, _, rfl, rfl, hmakes, hsteps, rfl, ?_⟩)
      rw [← hrun]
      rfl

end Secant

end RealRoots
