import RealRoots.Proofs.Solver.Failures

/-!
# Why runs fail

**Theorem (`failures_are_explained`).** A failed result tells where and why the run stopped. Its
error carries the current iterate, what was computed there and how many steps were taken, and no
other errors occur.

The iterate that an error is about is not reported apart from it. It is where the last recorded step
ends, and for the secant method also where that step begins, so each pass starts from points that
the records before it determine (`PointAt`). `Scheme.Fails` says in general how a run can fail, for
any such condition on the state of a pass.

* `Newton.Explains`, `Secant.Explains`: the errors of a failed run, one constructor for each place
  where a run can fail.
-/

namespace RealRoots

variable {f : Formula}

theorem SolverError.ofEvalError_eq {x : Float} {e : EvalError} (h : f.eval x = .error e) :
    SolverError.ofEvalError e = .evaluation x e.message := by
  rw [ofEvalError, Formula.x_of_eval_eq_error h]

/-! ## Where a run stands -/

/-- The iterate before the current one, for a run that takes its first step away from `x`. -/
def previous (x : Float) (steps : List Iteration) : Float :=
  (steps.getLast?.map Iteration.x).getD x

theorem current_concat (x : Float) (records : List Iteration) (r : Iteration) :
    current x (records ++ [r]) = r.nextX.getD (current x records) := by
  rw [current, List.foldl_append]
  rfl

theorem previous_concat (x : Float) (records : List Iteration) (r : Iteration) :
    previous x (records ++ [r]) = r.x := by
  rw [previous, List.getLast?_concat]
  rfl

/-- The point of the graph at `x`. -/
def PointAt (f : Formula) (x : Float) (p : Point) : Prop :=
  ∃ fx, f.eval x = .ok fx ∧ p = ⟨x, fx⟩

namespace Scheme

variable {S σ : Type} {scheme : Scheme S} {config : SolverConfig} {observer : Observer σ}
  {I : List Iteration → S → Prop} {budget iteration : Nat}

/-- A pass leads to the point where its record ends. -/
theorem pointAt_of_advance {rule : StoppingRule} {s : S} {pass : Advance} {value : Float}
    (hpass : scheme.advance f rule iteration s = .ok pass) (hvalue : pass.value = .ok value)
    (x : Float) (records : List Iteration) :
    PointAt f (current x (records ++ [pass.record])) ⟨pass.next, value⟩ := by
  obtain ⟨divisor, next, -, -, -, -, rfl⟩ := advance_eq_ok.1 hpass
  rw [current_concat]
  exact ⟨value, hvalue, rfl⟩

/-! ## How a run of passes fails -/

/-- **How a run of passes fails** that has made `records`, the first of them in iteration
`iteration`. `I` is what the records before a pass tell of its state. -/
inductive Fails (scheme : Scheme S) (f : Formula) (config : SolverConfig) (observer : Observer σ)
    (I : List Iteration → S → Prop) (budget iteration : Nat) (records : List Iteration) (last : σ) :
    SolverError → Prop
  /-- The budget is spent. -/
  | exhausted : records.length = budget →
      Fails scheme f config observer I budget iteration records last
        (.maxIterationsReached config.maxIterations)
  /-- The observer stops the run before the next pass. -/
  | cancelled {s : S} {o : σ} : I records s →
      observer.look o (scheme.step (iteration + records.length) s) = (.stop, last) →
      Fails scheme f config observer I budget iteration records last
        (.cancelled (iteration + records.length))
  /-- The next pass fails. -/
  | breaks {s : S} {i : Nat} {e : SolverError} : I records s →
      scheme.advance f config.stoppingRule i s = .error e →
      Fails scheme f config observer I budget iteration records last e
  /-- The last step goes to where the formula has no value. -/
  | leaves {r : Iteration} {next : Float} {e : EvalError} : records.getLast? = some r →
      r.nextX = some next → f.eval next = .error e →
      Fails scheme f config observer I budget iteration records last (.evaluation next e.message)

/-- A run that makes one more pass first fails in the same way. -/
theorem Fails.cons {r : Iteration} {records : List Iteration} {last : σ} {e : SolverError}
    (h : scheme.Fails f config observer (fun rest => I (r :: rest)) budget (iteration + 1) records
      last e) :
    scheme.Fails f config observer I (budget + 1) iteration (r :: records) last e := by
  have hcount : iteration + 1 + records.length = iteration + (r :: records).length := by
    rw [List.length_cons]
    omega
  cases h with
  | exhausted hlength => exact .exhausted (congrArg (· + 1) hlength)
  | cancelled hI hlook =>
    rw [hcount] at hlook ⊢
    exact .cancelled hI hlook
  | breaks hI hpass => exact .breaks hI hpass
  | leaves hlast hnext hvalue =>
    refine .leaves ?_ hnext hvalue
    rw [List.getLast?_cons, hlast]
    rfl

/-- **A run fails in one of these ways** if `I` holds of its state, and a pass that the run goes on
from keeps it. -/
theorem fails_of_iterate {s : S} {o last : σ} {run : Run} {e : SolverError} (hI : I [] s)
    (hkeep : ∀ {records i s pass value}, I records s →
      scheme.advance f config.stoppingRule i s = .ok pass → pass.value = .ok value →
      I (records ++ [pass.record]) (scheme.shift s ⟨pass.next, value⟩))
    (hrun : scheme.iterate f config observer budget iteration s o = (run, last))
    (hend : run.ending = .failed e) :
    scheme.Fails f config observer I budget iteration run.history last e := by
  -- The records of the turns before are put into `I`, so it varies.
  induction budget generalizing I iteration s o run with
  | zero =>
    cases hrun
    cases hend
    exact .exhausted rfl
  | succ budget ih =>
    rcases hlook : observer.look o (scheme.step iteration s) with ⟨signal, o'⟩
    cases signal with
    | stop =>
      rw [iterate_stop config hlook] at hrun
      cases hrun
      cases hend
      exact .cancelled hI hlook
    | proceed =>
      cases hpass : scheme.advance f config.stoppingRule iteration s with
      | error e' =>
        rw [iterate_breaks config hlook hpass] at hrun
        cases hrun
        cases hend
        exact .breaks hI hpass
      | ok pass =>
        by_cases hsmall : pass.record.error.any config.isConverged
        · rw [iterate_converges config hlook hpass hsmall] at hrun
          cases hrun
          cases hend
        · cases hvalue : pass.value with
          | error e' =>
            rw [iterate_leaves config hlook hpass hsmall hvalue] at hrun
            cases hrun
            cases hend
            obtain ⟨divisor, next, -, -, -, -, rfl⟩ := advance_eq_ok.1 hpass
            rw [SolverError.ofEvalError_eq hvalue]
            exact .leaves rfl rfl hvalue
          | ok value =>
            rcases hrest : scheme.iterate f config observer budget (iteration + 1)
              (scheme.shift s ⟨pass.next, value⟩) o' with ⟨rest, last'⟩
            rw [iterate_goes config hlook hpass hsmall hvalue hrest] at hrun
            cases hrun
            have hfails := ih (I := fun records => I (pass.record :: records))
              (hkeep hI hpass hvalue) (fun hI' => hkeep hI') hrest hend
            exact hfails.cons

end Scheme

variable {σ : Type} {observer : Observer σ} {last : σ} {e : SolverError}

/-! ## Newton-Raphson -/

namespace Newton

/-- **Why the run failed.** The current iterate is the guess, or where the last step ends. The error
says what went wrong there, and `last` is the state that the observer was left in. -/
inductive Explains (f : Formula) (input : NewtonInput) (observer : Observer σ) (result : RootResult)
    (last : σ) : SolverError → Prop
  /-- The formula has no value at the guess, and nothing is recorded. -/
  | guess {e : EvalError} : f.eval input.x0 = .error e → result.iterations = [] →
      Explains f input observer result last (.evaluation input.x0 e.message)
  /-- The formula has no value where the last recorded step ends. -/
  | landing {r : Iteration} {x : Float} {e : EvalError} : result.iterations.getLast? = some r →
      r.nextX = some x → f.eval x = .error e →
      Explains f input observer result last (.evaluation x e.message)
  /-- There is no derivative at the current iterate. The error is about the iterate or a point of
  the central difference. -/
  | slope {c : Float} {e : EvalError} : c = current input.x0 result.iterations →
      f.slope input.derivative c = .error e →
      e.x ∈ [c, c + input.derivative.step, c - input.derivative.step] →
      Explains f input observer result last (.evaluation e.x e.message)
  /-- The derivative at the current iterate is too small. -/
  | singular {c d : Float} : c = current input.x0 result.iterations →
      f.slope input.derivative c = .ok d → d.abs < singularityThreshold →
      Explains f input observer result last (.derivativeNearZero c d)
  /-- The update from the current iterate is not finite. -/
  | update {c fc d : Float} : c = current input.x0 result.iterations → f.eval c = .ok fc →
      f.slope input.derivative c = .ok d → ¬ d.abs < singularityThreshold →
      ¬ (c - fc / d).isFinite →
      Explains f input observer result last
        (.evaluation c "update produced a non-finite iterate")
  /-- The observer answered that the run should stop before the next step. -/
  | cancelled {c fc : Float} {o : σ} {i : Nat} : c = current input.x0 result.iterations →
      f.eval c = .ok fc → i = result.iterations.length →
      observer.look o ⟨.newtonRaphson, i, c, fc⟩ = (.stop, last) →
      Explains f input observer result last (.cancelled i)
  /-- The run took as many steps as it may. -/
  | exhausted : result.iterations.length = input.config.maxIterations →
      Explains f input observer result last (.maxIterationsReached input.config.maxIterations)

variable {input : NewtonInput} {result : RootResult}

/-- A derivative that fails says at which point. -/
theorem x_mem_of_slope_eq_error {options : DerivativeOptions} {c : Float} {e : EvalError}
    (h : f.slope options c = .error e) : e.x ∈ [c, c + options.step, c - options.step] := by
  rcases Formula.slope_eq_error h with hforward | hbackward | hx
  · rw [Formula.x_of_eval_eq_error hforward]
    simp
  · rw [Formula.x_of_eval_eq_error hbackward]
    simp
  · rw [hx]
    simp

/-- A pass that fails does so at the current iterate. -/
theorem explains_of_advance {p : Point} {i : Nat}
    (hp : PointAt f (current input.x0 result.iterations) p)
    (h : (scheme f input.derivative).advance f input.config.stoppingRule i p = .error e) :
    Explains f input observer result last e := by
  obtain ⟨fc, hfc, rfl⟩ := hp
  rcases Scheme.advance_eq_error.1 h with hslope | ⟨d, hd, hcases⟩
  · obtain ⟨e', he, rfl⟩ := mapError_eq_error.1 hslope
    exact .slope rfl he (x_mem_of_slope_eq_error he)
  · have hslope := mapError_eq_ok.1 hd
    rcases hcases with ⟨hsmall, rfl⟩ | ⟨hlarge, hfinite, rfl⟩
    · exact .singular rfl hslope hsmall
    · exact .update rfl hfc hslope hlarge hfinite

theorem explains_of_fails (h : (scheme f input.derivative).Fails f input.config observer
    (fun records => PointAt f (current input.x0 records)) input.config.maxIterations 0
    result.iterations last e) : Explains f input observer result last e := by
  cases h with
  | exhausted hlength => exact .exhausted hlength
  | cancelled hp hlook =>
    obtain ⟨fc, hfc, rfl⟩ := hp
    rw [Nat.zero_add] at hlook ⊢
    exact .cancelled rfl hfc rfl hlook
  | breaks hp hpass => exact explains_of_advance hp hpass
  | leaves hlast hnext hvalue => exact .landing hlast hnext hvalue

theorem explains (f : Formula) (input : NewtonInput) (observer : Observer σ) (o : σ)
    (h : (runWith f input observer o).1.failure = some e) :
    Explains f input observer (runWith f input observer o).1 (runWith f input observer o).2 e := by
  cases hvalue : f.eval input.x0 with
  | error e' =>
    rw [runWith_of_error input hvalue] at h ⊢
    cases Run.toResult_failure_eq_some.1 h
    rw [SolverError.ofEvalError_eq hvalue]
    exact .guess hvalue Run.toResult_iterations
  | ok value =>
    rcases hrun : (scheme f input.derivative).iterate f input.config observer
      input.config.maxIterations 0 ⟨input.x0, value⟩ o with ⟨run, last⟩
    rw [runWith_of_ok input hvalue hrun] at h ⊢
    have hend := Run.toResult_failure_eq_some.1 h
    rw [finish_ending] at hend
    rw [finish_of_failed hend]
    apply explains_of_fails
    rw [Run.toResult_iterations]
    exact Scheme.fails_of_iterate ⟨value, hvalue, rfl⟩
      (fun _ hpass hvalue => Scheme.pointAt_of_advance hpass hvalue _ _) hrun hend

end Newton

/-! ## Secant -/

namespace Secant

/-- **Why the run failed.** The current iterate is the second guess, or where the last step ends.
The one before is the first guess, or where the last step begins. -/
inductive Explains (f : Formula) (input : SecantInput) (observer : Observer σ) (result : RootResult)
    (last : σ) : SolverError → Prop
  /-- The formula has no value at the first guess, and nothing is recorded. -/
  | first {e : EvalError} : f.eval input.x0 = .error e → result.iterations = [] →
      Explains f input observer result last (.evaluation input.x0 e.message)
  /-- The formula has no value at the second guess, and only the first one is recorded. -/
  | second {f0 : Float} {e : EvalError} : f.eval input.x0 = .ok f0 → f.eval input.x1 = .error e →
      result.iterations = [firstSeed ⟨input.x0, f0⟩] →
      Explains f input observer result last (.evaluation input.x1 e.message)
  /-- The formula has no value where the last recorded step ends. -/
  | landing {r : Iteration} {x : Float} {e : EvalError} : result.iterations.getLast? = some r →
      r.nextX = some x → f.eval x = .error e →
      Explains f input observer result last (.evaluation x e.message)
  /-- The difference of the function values is too small. -/
  | singular {p c fp fc : Float} : p = previous input.x0 result.steps →
      c = current input.x1 result.iterations → f.eval p = .ok fp → f.eval c = .ok fc →
      (fc - fp).abs < singularityThreshold →
      Explains f input observer result last (.nearZeroDenominator p c (fc - fp))
  /-- The update from the current iterate is not finite. -/
  | update {p c fp fc : Float} : p = previous input.x0 result.steps →
      c = current input.x1 result.iterations → f.eval p = .ok fp → f.eval c = .ok fc →
      ¬ (fc - fp).abs < singularityThreshold → ¬ (c - fc * (c - p) / (fc - fp)).isFinite →
      Explains f input observer result last
        (.evaluation c "update produced a non-finite iterate")
  /-- The observer answered that the run should stop before the next step. -/
  | cancelled {c fc : Float} {o : σ} {i : Nat} : c = current input.x1 result.iterations →
      f.eval c = .ok fc → i = result.steps.length + 1 →
      observer.look o ⟨.secant, i, c, fc⟩ = (.stop, last) →
      Explains f input observer result last (.cancelled i)
  /-- The run took as many steps as it may, the guesses being the first iteration. -/
  | exhausted : result.steps.length = input.config.maxIterations - 1 →
      Explains f input observer result last (.maxIterationsReached input.config.maxIterations)

variable {input : SecantInput} {result : RootResult}

/-- The points that a pass starts from, after the given steps. -/
def PairAt (f : Formula) (input : SecantInput) (steps : List Iteration) (pair : Pair) : Prop :=
  PointAt f (previous input.x0 steps) pair.prev ∧ PointAt f (current input.x1 steps) pair.curr

theorem pairAt_shift {rule : StoppingRule} {steps : List Iteration} {i : Nat} {pair : Pair}
    {pass : Advance} {value : Float} (h : PairAt f input steps pair)
    (hpass : scheme.advance f rule i pair = .ok pass) (hvalue : pass.value = .ok value) :
    PairAt f input (steps ++ [pass.record]) (scheme.shift pair ⟨pass.next, value⟩) := by
  obtain ⟨-, fc, hfc, hcurr⟩ := h
  refine ⟨?_, Scheme.pointAt_of_advance hpass hvalue _ _⟩
  obtain ⟨divisor, next, -, -, -, -, rfl⟩ := Scheme.advance_eq_ok.1 hpass
  rw [previous_concat]
  show PointAt f pair.curr.x pair.curr
  rw [hcurr]
  exact ⟨fc, hfc, rfl⟩

/-- A pass that fails does so at the current iterate. -/
theorem explains_of_advance {pair : Pair} {i : Nat} (h : PairAt f input result.steps pair)
    (hpass : scheme.advance f input.config.stoppingRule i pair = .error e) :
    Explains f input observer result last e := by
  obtain ⟨prev, curr⟩ := pair
  obtain ⟨⟨fp, hfp, rfl⟩, fc, hfc, rfl⟩ := h
  have hcurrent : current input.x1 result.steps = current input.x1 result.iterations :=
    current_steps _ _
  rcases Scheme.advance_eq_error.1 hpass with hdivisor | ⟨d, hd, hcases⟩
  · cases hdivisor
  · cases hd
    rcases hcases with ⟨hsmall, rfl⟩ | ⟨hlarge, hfinite, rfl⟩
    · exact .singular rfl hcurrent hfp hfc hsmall
    · exact .update rfl hcurrent hfp hfc hlarge hfinite

theorem explains_of_fails (h : scheme.Fails f input.config observer (PairAt f input)
      (input.config.maxIterations - 1) 1 result.steps last e)
    (hlast : ∀ r, result.steps.getLast? = some r → result.iterations.getLast? = some r) :
    Explains f input observer result last e := by
  cases h with
  | exhausted hlength => exact .exhausted hlength
  | @cancelled pair _ hpair hlook =>
    obtain ⟨prev, curr⟩ := pair
    obtain ⟨-, fc, hfc, rfl⟩ := hpair
    exact .cancelled (current_steps _ _) hfc (Nat.add_comm _ _) hlook
  | breaks hpair hpass => exact explains_of_advance hpair hpass
  | leaves hr hnext hvalue => exact .landing (hlast _ hr) hnext hvalue

/-- The records of the guesses take no step. -/
theorem steps_of_makes {budget iteration : Nat} {pair : Pair} {run : Run}
    (h : scheme.Makes f input.config budget iteration pair run) (rule : StoppingRule)
    (p q : Point) : ((run.after [firstSeed p, secondSeed rule p q]).toResult .secant f
      input.config).steps = run.history := by
  have hsteps : run.IsStepsOf (firstSeed p :: secondSeed rule p q :: run.history) := h.isStepsOf
  exact hsteps.steps_toResult

theorem explains (f : Formula) (input : SecantInput) (observer : Observer σ) (o : σ)
    (h : (runWith f input observer o).1.failure = some e) :
    Explains f input observer (runWith f input observer o).1 (runWith f input observer o).2 e := by
  cases h0 : f.eval input.x0 with
  | error e' =>
    rw [runWith_of_first_error input h0] at h ⊢
    cases Run.toResult_failure_eq_some.1 h
    rw [SolverError.ofEvalError_eq h0]
    exact .first h0 Run.toResult_iterations
  | ok f0 =>
    cases h1 : f.eval input.x1 with
    | error e' =>
      rw [runWith_of_second_error input h0 h1] at h ⊢
      cases Run.toResult_failure_eq_some.1 h
      rw [SolverError.ofEvalError_eq h1]
      exact .second h0 h1 Run.toResult_iterations
    | ok f1 =>
      rcases hrun : scheme.iterate f input.config observer (input.config.maxIterations - 1) 1
        ⟨⟨input.x0, f0⟩, ⟨input.x1, f1⟩⟩ o with ⟨run, last⟩
      rw [runWith_of_ok input h0 h1 hrun] at h ⊢
      have hend := Run.toResult_failure_eq_some.1 h
      have hsteps := steps_of_makes (Scheme.makes_of_iterate hrun) input.config.stoppingRule
        ⟨input.x0, f0⟩ ⟨input.x1, f1⟩
      apply explains_of_fails
      · rw [hsteps]
        exact Scheme.fails_of_iterate ⟨⟨f0, h0, rfl⟩, f1, h1, rfl⟩ pairAt_shift hrun hend
      · intro r hr
        rw [hsteps] at hr
        rw [Run.toResult_iterations]
        show (_ :: _ :: run.history).getLast? = some r
        rw [List.getLast?_cons, List.getLast?_cons, hr]
        rfl

end Secant

/-- **A failed run tells where and why it stopped.** -/
theorem failures_are_explained {σ : Type} (f : Formula) (observer : Observer σ) (o : σ) :
    (∀ (input : NewtonInput) (e : SolverError),
      (Newton.runWith f input observer o).1.failure = some e →
        Newton.Explains f input observer (Newton.runWith f input observer o).1
          (Newton.runWith f input observer o).2 e) ∧
    ∀ (input : SecantInput) (e : SolverError),
      (Secant.runWith f input observer o).1.failure = some e →
        Secant.Explains f input observer (Secant.runWith f input observer o).1
          (Secant.runWith f input observer o).2 e :=
  ⟨fun input _ h => Newton.explains f input observer o h,
    fun input _ h => Secant.explains f input observer o h⟩

/-- The run for `x^2 + 1` from `1` steps to `0`, where the derivative is zero. The one for `1/x`
from `1` and `-1` steps to `0`, where there is no value. -/
theorem failures_explained_at_zero :
    let square : Formula := ⟨"x^2 + 1", .binary .add (.binary .pow .x (.number 2)) (.number 1)⟩
    let inverse : Formula := ⟨"1/x", .binary .div (.number 1) .x⟩
    let newton : NewtonInput := { expression := "x^2 + 1", x0 := 1, derivative := .shortcut }
    let secant : SecantInput := { expression := "1/x", x0 := 1, x1 := -1 }
    let q := Newton.runWith square newton .silent ()
    let r := Secant.runWith inverse secant .silent ()
    (q.1.failure = some (.derivativeNearZero 0 0) ∧
      Newton.Explains square newton .silent q.1 q.2 (.derivativeNearZero 0 0)) ∧
    r.1.failure = some (.evaluation 0 "division by zero at x = 0") ∧
      Secant.Explains inverse secant .silent r.1 r.2
        (.evaluation 0 "division by zero at x = 0") := by
  intro square inverse newton secant q r
  have hq : q.1.failure = some (.derivativeNearZero 0 0) := by decide +kernel
  have hr : r.1.failure = some (.evaluation 0 "division by zero at x = 0") := by decide +kernel
  exact ⟨⟨hq, (failures_are_explained square .silent ()).1 newton _ hq⟩,
    hr, (failures_are_explained inverse .silent ()).2 secant _ hr⟩

end RealRoots
