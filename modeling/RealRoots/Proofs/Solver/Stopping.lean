import RealRoots.Proofs.Solver.Runs

/-!
# Where a run stops

**Theorem (`stops_at_tolerance`).** A run of either method converges with the first step whose error
is below the tolerance, and with no other. It runs out of iterations exactly when it has taken as
many steps as its budget allows, none of them under the tolerance and each to a point where the
formula has a value.

A pass records its step, then tests the error, and only then needs the function value at the end of
the step. So the step that ends a run is in the history however the run ends, and a step under the
tolerance converges even where the formula has no value.
-/

namespace RealRoots

/-- The error of the record is known, and below the tolerance. -/
def BelowTolerance (config : SolverConfig) (it : Iteration) : Prop :=
  ∃ e, it.error = some e ∧ e < config.tolerance

/-- The record takes a step to a point where the formula has a value. -/
def Lands (f : Formula) (it : Iteration) : Prop :=
  ∃ next value, it.nextX = some next ∧ f.eval next = .ok value

theorem any_isConverged_iff {config : SolverConfig} {it : Iteration} :
    it.error.any config.isConverged ↔ BelowTolerance config it := by
  unfold BelowTolerance SolverConfig.isConverged
  cases it.error <;> simp

/-! ## The end of a run of passes -/

/-- A record that fails a test may be put before a list whose last record is tested. -/
theorem exists_getLast?_cons {α : Type} {P : α → Prop} {a : α} (h : ¬ P a) (l : List α) :
    (∃ last, (a :: l).getLast? = some last ∧ P last) ↔
      ∃ last, l.getLast? = some last ∧ P last := by
  cases l with
  | nil => simpa using h
  | cons b l => rw [List.getLast?_cons_cons]

namespace Scheme

variable {S : Type} {scheme : Scheme S} {f : Formula} {config : SolverConfig}
  {budget iteration : Nat} {s : S} {run : Run}

theorem advance_ends {rule : StoppingRule} {pass : Advance}
    (h : scheme.advance f rule iteration s = .ok pass) :
    pass.record.nextX = some pass.next ∧ pass.value = f.eval pass.next := by
  obtain ⟨divisor, next, -, -, -, -, rfl⟩ := advance_eq_ok.1 h
  exact ⟨rfl, rfl⟩

namespace Makes

/-- No step before the last one is under the tolerance. -/
theorem not_below_of_mem_dropLast (h : Makes scheme f config budget iteration s run)
    {it : Iteration} (hit : it ∈ run.history.dropLast) : ¬ BelowTolerance config it := by
  induction h with
  | exhausted | cancelled | breaks | converges | leaves => cases hit
  | @goes _ _ _ pass _ run _ hlarge _ _ ih =>
    change it ∈ (pass.record :: run.history).dropLast at hit
    cases hrun : run.history with
    | nil =>
      rw [hrun] at hit
      cases hit
    | cons first rest =>
      rw [hrun, List.dropLast_cons_cons, ← hrun, List.mem_cons] at hit
      obtain rfl | hit := hit
      · rwa [any_isConverged_iff] at hlarge
      · exact ih hit

/-- A run converges if and only if its last step is under the tolerance. -/
theorem converged_iff (h : Makes scheme f config budget iteration s run) :
    (∃ root value, run.ending = .converged root value) ↔
      ∃ last, run.history.getLast? = some last ∧ BelowTolerance config last := by
  induction h with
  | exhausted | cancelled | breaks => simp [Run.failing]
  | converges _ hsmall =>
    rw [any_isConverged_iff] at hsmall
    simpa using hsmall
  | leaves _ hlarge _ =>
    rw [any_isConverged_iff] at hlarge
    simpa using hlarge
  | @goes _ _ _ pass _ run _ hlarge _ _ ih =>
    rw [any_isConverged_iff] at hlarge
    change (∃ root value, run.ending = .converged root value) ↔
      ∃ last, (pass.record :: run.history).getLast? = some last ∧ BelowTolerance config last
    rw [exists_getLast?_cons hlarge, ih]

/-- A run is out of iterations if and only if it has taken all its steps, none of them under the
tolerance and each to a point with a function value. -/
theorem exhausted_iff (h : Makes scheme f config budget iteration s run)
    (hkind : ∀ iteration s e, scheme.advance f config.stoppingRule iteration s = .error e →
      e.kind ≠ .maxIterationsReached) :
    (∃ e, run.ending = .failed e ∧ e.kind = .maxIterationsReached) ↔
      run.history.length = budget ∧
        ∀ it ∈ run.history, ¬ BelowTolerance config it ∧ Lands f it := by
  induction h with
  | exhausted => simp [Run.failing, SolverError.kind]
  | cancelled => simp [Run.failing, SolverError.kind]
  | breaks hpass => simpa [Run.failing] using hkind _ _ _ hpass
  | converges _ hsmall =>
    rw [any_isConverged_iff] at hsmall
    simp [hsmall]
  | leaves hpass _ hvalue =>
    obtain ⟨hnext, heval⟩ := advance_ends hpass
    rw [heval] at hvalue
    simp [SolverError.ofEvalError, SolverError.kind, Lands, hnext, hvalue]
  | @goes _ _ _ pass value run hpass hlarge hvalue _ ih =>
    obtain ⟨hnext, heval⟩ := advance_ends hpass
    have hlands : Lands f pass.record := ⟨pass.next, value, hnext, heval ▸ hvalue⟩
    rw [any_isConverged_iff] at hlarge
    simpa [Run.after, hlarge, hlands] using ih

end Makes

end Scheme

/-! ## The end of a result -/

/-- **The run stops at its first step under the tolerance and nowhere else.** -/
structure StopsAtTolerance (f : Formula) (config : SolverConfig) (result : RootResult) : Prop where
  converged_iff : result.converged ↔
    ∃ last, result.steps.getLast? = some last ∧ BelowTolerance config last
  before : ∀ it ∈ result.steps.dropLast, ¬ BelowTolerance config it
  root : result.converged → ∃ last root, result.steps.getLast? = some last ∧
    last.nextX = some root ∧ result.root = some root ∧
    result.functionValue = (f.eval root).toOption
  residual : config.stoppingRule = .residual → result.converged → ∃ last root value,
    result.steps.getLast? = some last ∧ result.root = some root ∧ f.eval root = .ok value ∧
    result.functionValue = some value ∧ last.error = some value.abs ∧
    value.abs < config.tolerance

/-- The run ended because its iterations ran out. -/
def RootResult.IsExhausted (r : RootResult) : Prop :=
  r.errorKind = some .maxIterationsReached

instance (r : RootResult) : Decidable r.IsExhausted :=
  inferInstanceAs (Decidable (_ = _))

section

variable {S : Type} {scheme : Scheme S} {f : Formula} {config : SolverConfig}
  {budget iteration : Nat} {s : S} {run : Run} {method : Method} {history : List Iteration}

theorem stopsAtTolerance_of_makes (h : scheme.Makes f config budget iteration s run)
    (hsteps : run.IsStepsOf history) :
    StopsAtTolerance f config (Run.toResult { run with history } method f config) := by
  have hroot : (Run.toResult { run with history } method f config).converged →
      ∃ last root, run.history.getLast? = some last ∧ last.nextX = some root ∧
        (Run.toResult { run with history } method f config).root = some root ∧
        (Run.toResult { run with history } method f config).functionValue =
          (f.eval root).toOption := by
    intro hconverged
    obtain ⟨root, value, hend⟩ := Run.toResult_converged_iff.1 hconverged
    obtain ⟨last, hlast, hnext, rfl, -⟩ := h.last_of_converged hend
    obtain ⟨-, hx, hvalue⟩ :=
      @Run.toResult_of_converged { run with history } method f config _ _ hend
    exact ⟨last, root, hlast, hnext, hx, hvalue⟩
  have hconverged : (Run.toResult { run with history } method f config).converged ↔
      ∃ last, run.history.getLast? = some last ∧ BelowTolerance config last :=
    Run.toResult_converged_iff.trans h.converged_iff
  constructor <;> rw [hsteps.steps_toResult]
  · exact hconverged
  · exact fun it hit => h.not_below_of_mem_dropLast hit
  · exact hroot
  · intro hrule hend
    obtain ⟨last, root, hlast, hnext, hx, hvalue⟩ := hroot hend
    obtain ⟨last', hlast', e, he, hsmall⟩ := hconverged.1 hend
    obtain rfl : last = last' := Option.some.inj (hlast.symm.trans hlast')
    obtain ⟨next, hnext', -, herror⟩ := h.step_of_mem (List.mem_of_getLast? hlast)
    obtain rfl : root = next := Option.some.inj (hnext.symm.trans hnext')
    -- A residual that is known is that of a function value.
    rw [hrule, he] at herror
    obtain ⟨value, heval, rfl⟩ := Option.map_eq_some_iff.1 herror.symm
    exact ⟨last, root, value, hlast, hx, toOption_eq_some.1 heval, hvalue.trans heval, he, hsmall⟩

/-- A run that fails before its first pass has taken no steps, and has not converged. -/
theorem stopsAtTolerance_of_failing {e : SolverError} {total : Nat}
    (hsteps : (Run.failing e total).IsStepsOf history) :
    StopsAtTolerance f config
      (Run.toResult { Run.failing e total with history } method f config) := by
  have hconverged : (Run.toResult { Run.failing e total with history } method f config).converged =
      false := rfl
  constructor <;> simp only [hsteps.steps_toResult, hconverged]
  · simp [Run.failing]
  · simp [Run.failing]
  · intro h
    cases h
  · intro _ h
    cases h

theorem isExhausted_toResult_iff : (run.toResult method f config).IsExhausted ↔
    ∃ e, run.ending = .failed e ∧ e.kind = .maxIterationsReached :=
  Run.toResult_errorKind_eq_some

/-- A guess without a function value is not a matter of iterations. -/
theorem not_isExhausted_of_failing (history : List Iteration) {e : EvalError} {total : Nat} :
    ¬ (Run.toResult { Run.failing (.ofEvalError e) total with history } method f
      config).IsExhausted :=
  nofun

end

namespace Newton

/-- A pass does not use up the iterations. -/
theorem kind_of_advance_eq_error {f : Formula} {options : DerivativeOptions} {rule : StoppingRule}
    {iteration : Nat} {p : Point} {e : SolverError}
    (h : (scheme f options).advance f rule iteration p = .error e) :
    e.kind ≠ .maxIterationsReached := by
  obtain h | ⟨d, -, ⟨-, rfl⟩ | ⟨-, -, rfl⟩⟩ := Scheme.advance_eq_error.1 h
  · obtain ⟨e', -, rfl⟩ := mapError_eq_error.1 h
    nofun
  · nofun
  · nofun

/-- The run stops at the tolerance, or else when it has taken a step in each iteration. -/
structure Stops (f : Formula) (input : NewtonInput) (result : RootResult) : Prop
    extends StopsAtTolerance f input.config result where
  isExhausted_iff : result.IsExhausted ↔
    result.steps.length = input.config.maxIterations ∧
      ∀ it ∈ result.steps, ¬ BelowTolerance input.config it ∧ Lands f it

theorem stops {σ : Type} (f : Formula) (input : NewtonInput) (h : input.validate = .ok ())
    (observer : Observer σ) (o : σ) : Stops f input (runWith f input observer o).1 := by
  obtain ⟨-, ⟨-, hbudget⟩, -⟩ := NewtonInput.validate_eq_ok.1 h
  obtain ⟨e, -, hresult⟩ | ⟨value, run, history, -, hmakes, hsteps, -, hresult⟩ :=
    runWith_cases f input observer o <;> rw [hresult]
  · have hsteps : (Run.failing (.ofEvalError e) 0).IsStepsOf [] := rfl
    refine ⟨stopsAtTolerance_of_failing hsteps, iff_of_false (not_isExhausted_of_failing _) ?_⟩
    exact fun hlength => hbudget hlength.1.symm
  · refine ⟨stopsAtTolerance_of_makes hmakes hsteps, ?_⟩
    rw [isExhausted_toResult_iff, hsteps.steps_toResult]
    exact hmakes.exhausted_iff fun _ _ _ => kind_of_advance_eq_error

end Newton

namespace Secant

theorem kind_of_advance_eq_error {f : Formula} {rule : StoppingRule} {iteration : Nat} {pair : Pair}
    {e : SolverError} (h : scheme.advance f rule iteration pair = .error e) :
    e.kind ≠ .maxIterationsReached := by
  obtain h | ⟨d, -, ⟨-, rfl⟩ | ⟨-, -, rfl⟩⟩ := Scheme.advance_eq_error.1 h
  · cases h
  · nofun
  · nofun

/-- The run stops at the tolerance, or else when it has recorded both guesses, which count as one
iteration, and taken a step in each other one. -/
structure Stops (f : Formula) (input : SecantInput) (result : RootResult) : Prop
    extends StopsAtTolerance f input.config result where
  isExhausted_iff : result.IsExhausted ↔
    result.iterations.length = input.config.maxIterations + 1 ∧
      result.steps.length = input.config.maxIterations - 1 ∧
      ∀ it ∈ result.steps, ¬ BelowTolerance input.config it ∧ Lands f it

theorem stops {σ : Type} (f : Formula) (input : SecantInput) (h : input.validate = .ok ())
    (observer : Observer σ) (o : σ) : Stops f input (runWith f input observer o).1 := by
  obtain ⟨-, -, -, -, hbudget⟩ := SecantInput.validate_eq_ok.1 h
  obtain ⟨e, -, hresult⟩ | ⟨f0, e, -, -, hresult⟩ |
    ⟨f0, f1, run, history, -, -, hmakes, hsteps, hhistory, hresult⟩ :=
    runWith_cases f input observer o <;> rw [hresult]
  · have hsteps : (Run.failing (.ofEvalError e) 0).IsStepsOf [] := rfl
    refine ⟨stopsAtTolerance_of_failing hsteps, iff_of_false (not_isExhausted_of_failing _) ?_⟩
    exact fun hlength => absurd hlength.1 (by simp [Run.failing])
  · have hsteps : (Run.failing (.ofEvalError e) 0).IsStepsOf [firstSeed ⟨input.x0, f0⟩] := rfl
    refine ⟨stopsAtTolerance_of_failing hsteps, iff_of_false (not_isExhausted_of_failing _) ?_⟩
    exact fun hlength => hbudget (Nat.succ.inj hlength.1).symm
  · refine ⟨stopsAtTolerance_of_makes hmakes hsteps, ?_⟩
    rw [isExhausted_toResult_iff, hsteps.steps_toResult, Run.toResult_iterations, hhistory]
    refine (hmakes.exhausted_iff fun _ _ _ => kind_of_advance_eq_error).trans ?_
    constructor
    · rintro ⟨hspent, hall⟩
      exact ⟨by simp only [List.length_cons]; omega, hspent, hall⟩
    · rintro ⟨-, hspent, hall⟩
      exact ⟨hspent, hall⟩

end Secant

/-- **A run stops at the first step under the tolerance, and at no other.** -/
theorem stops_at_tolerance {σ : Type} (f : Formula) (observer : Observer σ) (o : σ) :
    (∀ input : NewtonInput, input.validate = .ok () →
      Newton.Stops f input (Newton.runWith f input observer o).1) ∧
    ∀ input : SecantInput, input.validate = .ok () →
      Secant.Stops f input (Secant.runWith f input observer o).1 :=
  ⟨fun input h => Newton.stops f input h observer o,
    fun input h => Secant.stops f input h observer o⟩

/-- With one iteration each, a step of exactly the tolerance does not converge, and two guesses
leave no step to take. -/
theorem stops_after_one_iteration :
    let f : Formula := ⟨"x-1", .binary .sub .x (.number 1)⟩
    let config : SolverConfig := { tolerance := 0.5, maxIterations := 1 }
    let newton : NewtonInput :=
      { expression := "x-1", x0 := 1.5, config, derivative := .shortcut }
    let secant : SecantInput := { expression := "x-1", x0 := 1.5, x1 := 1, config }
    (newton.validate = .ok () ∧ (Newton.runWith f newton .silent ()).1.IsExhausted ∧
      Newton.Stops f newton (Newton.runWith f newton .silent ()).1) ∧
    secant.validate = .ok () ∧ (Secant.runWith f secant .silent ()).1.IsExhausted ∧
      Secant.Stops f secant (Secant.runWith f secant .silent ()).1 := by
  refine ⟨⟨rfl, by decide +kernel, ?_⟩, rfl, by decide +kernel, ?_⟩
  · exact (stops_at_tolerance _ .silent ()).1 _ rfl
  · exact (stops_at_tolerance _ .silent ()).2 _ rfl

end RealRoots
