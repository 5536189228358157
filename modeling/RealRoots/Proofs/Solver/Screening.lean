import RealRoots.Proofs.Json.ReadBack
import RealRoots.Proofs.Number.Doubles
import RealRoots.Proofs.Solver.Failures

/-!
# What a run screens

Function values and derivatives are screened when they are computed, an iterate before the formula
is evaluated there, and a convergence rate before it is reported. So a record is finite apart from
its error, and a result apart from the errors in its records and its failure
(`Run.isScreened_toResult`). The error of a step is finite unless the length of the step overflows
(`Scheme.Makes.finiteInRange`).
-/

namespace RealRoots

variable {f : Formula} {rule : StoppingRule} {config : SolverConfig}

/-! ## Records and results -/

/-- Apart from its error, the record is finite. -/
structure Iteration.IsScreened (it : Iteration) : Prop where
  x : it.x.isFinite
  fx : it.fx.isFinite
  derivative : ∀ d, it.derivative = some d → d.isFinite
  nextX : ∀ next, it.nextX = some next → next.isFinite

/-- Apart from the errors in its records and its failure, the result is finite. -/
structure RootResult.IsScreened (r : RootResult) : Prop where
  root : ∀ x, r.root = some x → x.isFinite
  functionValue : ∀ x, r.functionValue = some x → x.isFinite
  records : ∀ it ∈ r.iterations, it.IsScreened
  executionTime : r.executionTimeMs.isFinite
  convergenceRate : ∀ x, r.convergenceRate = some x → x.isFinite
  tolerance : r.tolerance.isFinite

/-- Every error in the records is finite. -/
def ErrorsFinite (records : List Iteration) : Prop :=
  ∀ it ∈ records, ∀ x, it.error = some x → x.isFinite

namespace RootResult

variable {r : RootResult}

theorem IsScreened.timed (h : r.IsScreened) {ms : Float} (hms : ms.isFinite) :
    (r.timed ms).IsScreened :=
  { h with executionTime := hms }

theorem IsScreened.isFinite_iff (h : r.IsScreened) : r.IsFinite ↔
    ErrorsFinite r.iterations ∧ ∀ e, r.failure = some e → ∀ x ∈ e.numbers, x.isFinite := by
  have hrecord (it : Iteration) (hit : it ∈ r.iterations) : (∀ x ∈ it.numbers, x.isFinite) ↔
      ∀ x, it.error = some x → x.isFinite := by
    obtain ⟨hx, hfx, hderivative, hnext⟩ := h.records it hit
    rw [Iteration.numbers_isFinite_iff]
    exact ⟨fun ⟨_, _, _, _, herror⟩ => herror, fun herror => ⟨hx, hfx, hderivative, hnext, herror⟩⟩
  rw [RootResult.isFinite_iff, forall₂_congr hrecord]
  constructor
  · rintro ⟨-, -, herrors, -, hfailure, -⟩
    exact ⟨herrors, hfailure⟩
  · rintro ⟨herrors, hfailure⟩
    exact ⟨h.root, h.functionValue, herrors, h.executionTime, hfailure, h.convergenceRate,
      h.tolerance⟩

end RootResult

/-- The rate is screened when it is computed. -/
theorem convergenceRate_isFinite {records : List Iteration} {rate : Float}
    (h : convergenceRate records = some rate) : rate.isFinite := by
  unfold convergenceRate at h
  split at h
  · split at h
    · cases h
    · dsimp only at h
      split at h
      · cases h
        assumption
      · cases h
  · cases h

namespace Run

variable {run : Run} {records : List Iteration}

/-- A run reports what it recorded. -/
theorem isScreened_toResult (method : Method) (f : Formula)
    (htolerance : isPositive config.tolerance) (hrecords : ∀ it ∈ records, it.IsScreened)
    (hroot : ∀ root value, run.ending = .converged root value →
      root.isFinite ∧ ∀ v, value = some v → v.isFinite) :
    (toResult { run with history := records } method f config).IsScreened := by
  rw [isPositive, Bool.and_eq_true] at htolerance
  have hrate (rate : Float) (h : RealRoots.convergenceRate records = some rate) :
      rate.isFinite := convergenceRate_isFinite h
  have htime : (0 : Float).isFinite := by rfl
  have hnone (x : Float) (h : none = some x) : x.isFinite := by cases h
  cases hend : run.ending with
  | converged root value =>
    obtain ⟨hx, hvalue⟩ := hroot root value hend
    simp only [toResult]
    exact ⟨fun _ h => Option.some.inj h ▸ hx, hvalue, hrecords, htime, hrate, htolerance.1⟩
  | failed error =>
    simp only [toResult]
    exact ⟨hnone, hnone, hrecords, htime, hrate, htolerance.1⟩

theorem isScreened_failing (method : Method) (f : Formula) (e : SolverError)
    (htolerance : isPositive config.tolerance) (records : List Iteration)
    (hrecords : ∀ it ∈ records, it.IsScreened) :
    (toResult { failing e 0 with history := records } method f config).IsScreened := by
  refine isScreened_toResult method f htolerance hrecords fun root value hend => ?_
  cases hend

/-- The result of a run is finite if the errors that it recorded and its failure are. -/
theorem isFinite_toResult_iff {method : Method}
    (h : (toResult { run with history := records } method f config).IsScreened) :
    (toResult { run with history := records } method f config).IsFinite ↔
      ErrorsFinite records ∧ ∀ e, run.ending = .failed e → ∀ x ∈ e.numbers, x.isFinite := by
  rw [h.isFinite_iff]
  simp only [toResult_iterations, toResult_failure_eq_some]

end Run

/-- The formula has no value at `x`, and the error says so. -/
theorem NoValue.numbers_isFinite_iff {x : Float} {e : SolverError} (h : NoValue f x e) :
    (∀ y ∈ e.numbers, y.isFinite) ↔ x.isFinite := by
  obtain ⟨e', he', rfl⟩ := h
  rw [← Formula.x_of_eval_eq_error he']
  exact List.forall_mem_singleton

/-! ## Steps -/

/-- The length of the step does not overflow, if the rule asks for it. -/
def StepInRange (rule : StoppingRule) (it : Iteration) : Prop :=
  rule = .stepSize → ∀ next, it.nextX = some next → (next - it.x).isFinite

/-- The error of a step is finite, unless the length of the step overflows. -/
theorem StoppingRule.error_isFinite_iff (rule : StoppingRule) (x next : Float)
    {value : Option Float} (h : ∀ v, value = some v → v.isFinite) :
    (∀ e, rule.error x next value = some e → e.isFinite) ↔
      (rule = .stepSize → (next - x).isFinite) := by
  cases rule with
  | stepSize => simp [error, abs_isFinite]
  | residual =>
    refine iff_of_true (fun e he => ?_) nofun
    obtain ⟨v, hv, rfl⟩ := Option.map_eq_some_iff.1 he
    rw [abs_isFinite]
    exact h v hv

/-- The record is screened, and its error is finite unless the length of its step overflows. -/
structure Iteration.FiniteInRange (rule : StoppingRule) (it : Iteration) : Prop where
  isScreened : it.IsScreened
  error_iff : (∀ x, it.error = some x → x.isFinite) ↔ StepInRange rule it

theorem stepInRange_of_nextX_eq_none {it : Iteration} (h : it.nextX = none) :
    StepInRange rule it := by
  intro _ next hnext
  cases h.symm.trans hnext

/-- A record of a guess or a root takes no step. -/
theorem Iteration.IsScreened.finiteInRange {it : Iteration} (h : it.IsScreened)
    (hnext : it.nextX = none) (herror : it.error = none) : it.FiniteInRange rule := by
  refine ⟨h, iff_of_true ?_ (stepInRange_of_nextX_eq_none hnext)⟩
  intro x hx
  cases herror.symm.trans hx

namespace Scheme.Makes

variable {S : Type} {scheme : Scheme S} {budget iteration : Nat} {s : S} {run : Run}

/-- The records of passes from a finite point of the graph. -/
theorem finiteInRange (h : scheme.Makes f config budget iteration s run)
    (hshift : ∀ s p, scheme.point (scheme.shift s p) = p) (hx : (scheme.point s).x.isFinite)
    (hfx : f.eval (scheme.point s).x = .ok (scheme.point s).fx)
    (hderivative : ∀ s divisor d, scheme.divisor s = .ok divisor →
      scheme.derivative divisor = some d → d.isFinite) {it : Iteration} (hit : it ∈ run.history) :
    it.FiniteInRange config.stoppingRule := by
  obtain ⟨states, rfl, hfollows⟩ := h.follows
  obtain ⟨k, hk⟩ := List.mem_iff_getElem?.1 hit
  obtain ⟨hlt, -⟩ := List.getElem?_eq_some_iff.1 hk
  obtain ⟨hx, hfx⟩ := hfollows.point_of (P := fun p => p.x.isFinite ∧ f.eval p.x = .ok p.fx)
    hshift ⟨hx, hfx⟩ (fun _ hx hfx => ⟨hx, hfx⟩) hlt
  obtain ⟨pass, hpass, rfl⟩ := hfollows.passes k it hk
  obtain ⟨divisor, next, hdivisor, -, -, hfinite, rfl⟩ := advance_eq_ok.1 hpass
  have hvalue (v : Float) (hv : (f.eval next).toOption = some v) : v.isFinite :=
    Formula.eval_isFinite (toOption_eq_some.1 hv)
  constructor
  · exact ⟨hx, Formula.eval_isFinite hfx, fun d hd => hderivative _ divisor d hdivisor hd,
      fun _ h => Option.some.inj h ▸ hfinite⟩
  · rw [StoppingRule.error_isFinite_iff _ _ _ hvalue, StepInRange]
    simp

/-- A run converges at a finite root. -/
theorem root_isFinite (h : scheme.Makes f config budget iteration s run) (root : Float)
    (value : Option Float) (hend : run.ending = .converged root value) :
    root.isFinite ∧ ∀ v, value = some v → v.isFinite := by
  obtain ⟨r, hr, hnext, rfl, -⟩ := h.last_of_converged hend
  obtain ⟨next, hnext', hfinite, -⟩ := h.step_of_mem (List.mem_of_getLast? hr)
  obtain rfl : root = next := Option.some.inj (hnext.symm.trans hnext')
  exact ⟨hfinite, fun v hv => Formula.eval_isFinite (toOption_eq_some.1 hv)⟩

end Scheme.Makes

end RealRoots
