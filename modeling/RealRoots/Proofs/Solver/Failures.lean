import RealRoots.Proofs.Expr.Evaluation
import RealRoots.Proofs.Solver.Runs

/-!
# How runs fail

A run of passes that fails has spent its budget or was stopped, or else it fails at its current
iterate: the next pass fails there, or the formula has no value there (`Scheme.Makes.fails`).
-/

namespace RealRoots

/-- The iterate that a run from `x` has come to: where its last step ends. -/
def current (x : Float) (records : List Iteration) : Float :=
  records.foldl (fun x it => it.nextX.getD x) x

theorem current_steps (x : Float) (records : List Iteration) :
    current x (records.filter fun it => it.nextX.isSome) = current x records := by
  induction records generalizing x with
  | nil => rfl
  | cons it records ih =>
    cases h : it.nextX with
    | none =>
      rw [List.filter_cons_of_neg (by simp [h]), ih]
      simp [current, h]
    | some next =>
      rw [List.filter_cons_of_pos (by simp [h])]
      exact ih _

/-- The error is that the formula has no value at `x`. -/
def NoValue (f : Formula) (x : Float) (e : SolverError) : Prop :=
  ∃ e', f.eval x = .error e' ∧ e = .ofEvalError e'

namespace Scheme

variable {S : Type} {scheme : Scheme S} {f : Formula} {config : SolverConfig}
  {budget iteration : Nat} {s : S} {run : Run}

/-- **How a run of passes fails**, if `I` holds of its state and a pass keeps it. -/
theorem Makes.fails {I : S → Prop} (h : Makes scheme f config budget iteration s run)
    (hshift : ∀ s p, scheme.point (scheme.shift s p) = p) (hI : I s)
    (hstep : ∀ s p, I s → p.x.isFinite → f.eval p.x = .ok p.fx → I (scheme.shift s p))
    {e : SolverError} (hend : run.ending = .failed e) :
    e = .maxIterationsReached config.maxIterations ∨ (∃ i, e = .cancelled i) ∨
      (∃ i s', I s' ∧ (scheme.point s').x = current (scheme.point s).x run.history ∧
        scheme.advance f config.stoppingRule i s' = .error e) ∨
      (current (scheme.point s).x run.history).isFinite ∧
        NoValue f (current (scheme.point s).x run.history) e := by
  induction h with
  | exhausted =>
    cases hend
    exact .inl rfl
  | cancelled =>
    cases hend
    exact .inr (.inl ⟨_, rfl⟩)
  | breaks hpass =>
    cases hend
    exact .inr (.inr (.inl ⟨_, _, hI, rfl, hpass⟩))
  | converges => cases hend
  | leaves hpass _ hvalue =>
    cases hend
    obtain ⟨divisor, next, -, -, -, hfinite, rfl⟩ := advance_eq_ok.1 hpass
    exact .inr (.inr (.inr ⟨hfinite, _, hvalue, rfl⟩))
  | goes hpass _ hvalue _ ih =>
    obtain ⟨divisor, next, -, -, -, hfinite, rfl⟩ := advance_eq_ok.1 hpass
    have hrest := ih (hstep _ ⟨next, _⟩ hI hfinite hvalue) hend
    rwa [hshift] at hrest

end Scheme

end RealRoots
