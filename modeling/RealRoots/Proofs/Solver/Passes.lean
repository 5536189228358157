import RealRoots.Proofs.Results
import RealRoots.Solver.Scheme

/-!
# Passes of a run

What one pass does is said once (`Scheme.advance_eq_ok`), and so is how passes make up a run
(`Scheme.Makes`, `Scheme.iterate_makes`). From there:

**Theorem (`Scheme.iterate_follows`).** The history of a run follows states of the method: each
record is that of a pass from its state, and each state is where the pass before it led.

* `Scheme.iterate_stop`, `iterate_breaks`, `iterate_converges`, `iterate_leaves`, `iterate_goes`: one
  equation for each outcome of a turn of the loop.
* `Scheme.Makes.last_of_converged`: what a converged run says of its end.
-/

namespace RealRoots

namespace Scheme

variable {S σ : Type} {scheme : Scheme S} {f : Formula} {rule : StoppingRule}
  {config : SolverConfig}

/-- **One pass.** It divides by a divisor that is not too small, and ends at a finite iterate. -/
theorem advance_eq_ok {iteration : Nat} {s : S} {pass : Advance} :
    scheme.advance f rule iteration s = .ok pass ↔
      ∃ divisor next, scheme.divisor s = .ok divisor ∧ ¬ divisor.abs < singularityThreshold ∧
        next = scheme.update s divisor ∧ next.isFinite ∧ pass =
          { record :=
              { index := iteration + scheme.method.extraRecords
                x := (scheme.point s).x
                fx := (scheme.point s).fx
                derivative := scheme.derivative divisor
                nextX := some next
                error := rule.error (scheme.point s).x next (f.eval next).toOption }
            next
            value := f.eval next } := by
  unfold advance
  simp only [bind_eq_ok]
  constructor
  · rintro ⟨divisor, hdivisor, h⟩
    split at h
    · cases h
    · split at h
      · cases h
        exact ⟨divisor, _, hdivisor, ‹_›, rfl, ‹_›, rfl⟩
      · cases h
  · rintro ⟨divisor, next, hdivisor, hlarge, rfl, hfinite, rfl⟩
    refine ⟨divisor, hdivisor, ?_⟩
    rw [if_neg hlarge, if_pos hfinite]

/-- A pass fails because it has no divisor, because the divisor is too small, or because the next
iterate is not finite. -/
theorem advance_eq_error {iteration : Nat} {s : S} {e : SolverError} :
    scheme.advance f rule iteration s = .error e ↔
      scheme.divisor s = .error e ∨ ∃ divisor, scheme.divisor s = .ok divisor ∧
        (divisor.abs < singularityThreshold ∧ e = scheme.singular s divisor ∨
          ¬ divisor.abs < singularityThreshold ∧ ¬ (scheme.update s divisor).isFinite ∧
            e = .evaluation (scheme.point s).x "update produced a non-finite iterate") := by
  unfold advance
  cases scheme.divisor s with
  | error e' => simp [error_bind]
  | ok divisor =>
    by_cases hsmall : divisor.abs < singularityThreshold
    · simp [ok_bind, error_bind, throw_eq_error, hsmall, eq_comm (a := e)]
    · by_cases hfinite : (scheme.update s divisor).isFinite
      · simp [ok_bind, hsmall, hfinite]
      · simp [ok_bind, error_bind, throw_eq_error, hsmall, hfinite, eq_comm (a := e)]

/-- **A run is made of passes.** These are the runs of at most `budget` passes from a state, the
first pass with number `iteration`, whatever an observer answers. -/
inductive Makes (scheme : Scheme S) (f : Formula) (config : SolverConfig) :
    (budget iteration : Nat) → S → Run → Prop
  /-- The budget is spent. -/
  | exhausted (iteration : Nat) (s : S) : Makes scheme f config 0 iteration s
      (.failing (.maxIterationsReached config.maxIterations) config.maxIterations)
  /-- An observer stops the run before the pass. -/
  | cancelled (budget iteration : Nat) (s : S) :
      Makes scheme f config (budget + 1) iteration s (.failing (.cancelled iteration) iteration)
  /-- The pass fails. -/
  | breaks {budget iteration : Nat} {s : S} {e : SolverError} :
      scheme.advance f config.stoppingRule iteration s = .error e →
      Makes scheme f config (budget + 1) iteration s (.failing e iteration)
  /-- The pass takes a step under the tolerance. -/
  | converges {budget iteration : Nat} {s : S} {pass : Advance} :
      scheme.advance f config.stoppingRule iteration s = .ok pass →
      pass.record.error.any config.isConverged →
      Makes scheme f config (budget + 1) iteration s
        ⟨[pass.record], .converged pass.next pass.value.toOption, iteration + 1⟩
  /-- The pass takes a step to where the formula has no value. -/
  | leaves {budget iteration : Nat} {s : S} {pass : Advance} {e : EvalError} :
      scheme.advance f config.stoppingRule iteration s = .ok pass →
      ¬ pass.record.error.any config.isConverged → pass.value = .error e →
      Makes scheme f config (budget + 1) iteration s
        ⟨[pass.record], .failed (.ofEvalError e), iteration + 1⟩
  /-- The pass takes a step, and the run goes on from there. -/
  | goes {budget iteration : Nat} {s : S} {pass : Advance} {value : Float} {run : Run} :
      scheme.advance f config.stoppingRule iteration s = .ok pass →
      ¬ pass.record.error.any config.isConverged → pass.value = .ok value →
      Makes scheme f config budget (iteration + 1) (scheme.shift s ⟨pass.next, value⟩) run →
      Makes scheme f config (budget + 1) iteration s (run.after [pass.record])

theorem iterate_makes (scheme : Scheme S) (f : Formula) (config : SolverConfig)
    (observer : Observer σ) (budget iteration : Nat) (s : S) (o : σ) :
    Makes scheme f config budget iteration s
      (scheme.iterate f config observer budget iteration s o).1 := by
  induction budget generalizing iteration s o with
  | zero => exact .exhausted ..
  | succ budget ih =>
    unfold iterate
    split
    · exact .cancelled ..
    · split
      · exact .breaks ‹_›
      · split
        · exact .converges ‹_› ‹_›
        · split
          · exact .leaves ‹_› ‹_› ‹_›
          · exact .goes ‹_› ‹_› ‹_› (ih ..)

theorem makes_of_iterate {observer : Observer σ} {budget iteration : Nat} {s : S} {o last : σ}
    {run : Run} (h : scheme.iterate f config observer budget iteration s o = (run, last)) :
    Makes scheme f config budget iteration s run := by
  have hmakes := iterate_makes scheme f config observer budget iteration s o
  rwa [h] at hmakes

/-! ## One turn of the loop -/

section

variable (config) {observer : Observer σ} {budget iteration : Nat} {s : S} {o o' : σ}
  {pass : Advance}

theorem iterate_stop (hlook : observer.look o (scheme.step iteration s) = (.stop, o')) :
    scheme.iterate f config observer (budget + 1) iteration s o =
      (.failing (.cancelled iteration) iteration, o') := by
  unfold iterate
  rw [hlook]

theorem iterate_breaks (hlook : observer.look o (scheme.step iteration s) = (.proceed, o'))
    {e : SolverError} (hpass : scheme.advance f config.stoppingRule iteration s = .error e) :
    scheme.iterate f config observer (budget + 1) iteration s o = (.failing e iteration, o') := by
  unfold iterate
  rw [hlook]
  simp only [hpass]

theorem iterate_converges (hlook : observer.look o (scheme.step iteration s) = (.proceed, o'))
    (hpass : scheme.advance f config.stoppingRule iteration s = .ok pass)
    (hsmall : pass.record.error.any config.isConverged) :
    scheme.iterate f config observer (budget + 1) iteration s o =
      (⟨[pass.record], .converged pass.next pass.value.toOption, iteration + 1⟩, o') := by
  unfold iterate
  rw [hlook]
  simp only [hpass, if_pos hsmall]

theorem iterate_leaves (hlook : observer.look o (scheme.step iteration s) = (.proceed, o'))
    (hpass : scheme.advance f config.stoppingRule iteration s = .ok pass)
    (hlarge : ¬ pass.record.error.any config.isConverged) {e : EvalError}
    (hvalue : pass.value = .error e) :
    scheme.iterate f config observer (budget + 1) iteration s o =
      (⟨[pass.record], .failed (.ofEvalError e), iteration + 1⟩, o') := by
  unfold iterate
  rw [hlook]
  simp only [hpass, if_neg hlarge, hvalue]

theorem iterate_goes (hlook : observer.look o (scheme.step iteration s) = (.proceed, o'))
    (hpass : scheme.advance f config.stoppingRule iteration s = .ok pass)
    (hlarge : ¬ pass.record.error.any config.isConverged) {value : Float}
    (hvalue : pass.value = .ok value) {run : Run} {last : σ}
    (hrun : scheme.iterate f config observer budget (iteration + 1)
      (scheme.shift s ⟨pass.next, value⟩) o' = (run, last)) :
    scheme.iterate f config observer (budget + 1) iteration s o =
      (run.after [pass.record], last) := by
  unfold iterate
  rw [hlook]
  simp only [hpass, if_neg hlarge, hvalue, hrun]

end

/-! ## The history -/

/-- The records are those of passes from the states, of which the first has number `first`, and each
pass but the last leads to the next state. -/
structure Follows (scheme : Scheme S) (f : Formula) (rule : StoppingRule) (first : Nat)
    (states : Nat → S) (records : List Iteration) : Prop where
  passes : ∀ k r, records[k]? = some r →
    ∃ pass, scheme.advance f rule (first + k) (states k) = .ok pass ∧ pass.record = r
  leads : ∀ k r, records[k]? = some r → k + 1 < records.length → ∃ next value,
    r.nextX = some next ∧ f.eval next = .ok value ∧
      states (k + 1) = scheme.shift (states k) ⟨next, value⟩

namespace Follows

variable {first : Nat} {s : S} {states : Nat → S} {records : List Iteration} {pass : Advance}

theorem nil (states : Nat → S) : Follows scheme f rule first states [] :=
  ⟨by simp, by simp⟩

theorem single (h : scheme.advance f rule first (states 0) = .ok pass) :
    Follows scheme f rule first states [pass.record] := by
  constructor
  · intro k r hr
    obtain ⟨rfl, rfl⟩ : k = 0 ∧ pass.record = r := by
      cases k <;> simp_all
    exact ⟨pass, h, rfl⟩
  · intro k r hr hk
    simp at hk

/-- A pass may be put before the ones that start where it leads. -/
theorem cons {value : Float} (h : scheme.advance f rule first s = .ok pass)
    (hvalue : pass.value = .ok value) (hstates : states 0 = scheme.shift s ⟨pass.next, value⟩)
    (hrest : Follows scheme f rule (first + 1) states records) :
    Follows scheme f rule first (fun | 0 => s | k + 1 => states k) (pass.record :: records) := by
  constructor
  · intro k r hr
    cases k with
    | zero => exact ⟨pass, h, by simpa using hr⟩
    | succ k =>
      have := hrest.passes k r hr
      rwa [Nat.add_right_comm] at this
  · intro k r hr hk
    cases k with
    | zero =>
      obtain ⟨divisor, next, -, -, -, -, rfl⟩ := advance_eq_ok.1 h
      obtain rfl : _ = r := by simpa using hr
      exact ⟨next, value, rfl, hvalue, hstates⟩
    | succ k => exact hrest.leads k r hr (by simpa using hk)

/-- What holds of the first iterate, and of every finite point of the graph, holds throughout. -/
theorem point_of {P : Point → Prop} (hshift : ∀ s p, scheme.point (scheme.shift s p) = p)
    (h : Follows scheme f rule first states records) (h0 : P (scheme.point (states 0)))
    (hnext : ∀ p : Point, p.x.isFinite → f.eval p.x = .ok p.fx → P p) {k : Nat}
    (hk : k < records.length) : P (scheme.point (states k)) := by
  cases k with
  | zero => exact h0
  | succ k =>
    have hr : records[k]? = some records[k] := List.getElem?_eq_getElem _
    obtain ⟨next, value, hnextX, hvalue, hstate⟩ := h.leads k _ hr hk
    obtain ⟨pass, hpass, hrecord⟩ := h.passes k _ hr
    obtain ⟨divisor, next', -, -, -, hfinite, rfl⟩ := advance_eq_ok.1 hpass
    rw [← hrecord] at hnextX
    cases hnextX
    rw [hstate, hshift]
    exact hnext ⟨next, value⟩ hfinite hvalue

/-- Each record but the first is at the iterate that the one before it leads to. -/
theorem nextX_eq (hshift : ∀ s p, scheme.point (scheme.shift s p) = p)
    (h : Follows scheme f rule first states records) {k : Nat} {r r' : Iteration}
    (hr : records[k]? = some r) (hr' : records[k + 1]? = some r') : r.nextX = some r'.x := by
  obtain ⟨hk, -⟩ := List.getElem?_eq_some_iff.1 hr'
  obtain ⟨next, value, hnext, -, hstate⟩ := h.leads k r hr hk
  obtain ⟨pass, hpass, rfl⟩ := h.passes (k + 1) r' hr'
  obtain ⟨divisor, next', -, -, -, -, rfl⟩ := advance_eq_ok.1 hpass
  rw [hnext, hstate, hshift]

/-- Each record takes a step, and its error is that of the step. -/
theorem step_of_mem (h : Follows scheme f rule first states records) {r : Iteration}
    (hr : r ∈ records) : ∃ next, r.nextX = some next ∧ next.isFinite ∧
      r.error = rule.error r.x next (f.eval next).toOption := by
  obtain ⟨k, hk⟩ := List.mem_iff_getElem?.1 hr
  obtain ⟨pass, hpass, rfl⟩ := h.passes k r hk
  obtain ⟨divisor, next, -, -, -, hfinite, rfl⟩ := advance_eq_ok.1 hpass
  exact ⟨next, rfl, hfinite, rfl⟩

end Follows

/-- The history of a run follows states of the method, the first of which is the run's own. -/
theorem Makes.follows {budget iteration : Nat} {s : S} {run : Run}
    (h : Makes scheme f config budget iteration s run) : ∃ states, states 0 = s ∧
      Follows scheme f config.stoppingRule iteration states run.history := by
  induction h with
  | exhausted _ s | cancelled _ _ s => exact ⟨fun _ => s, rfl, .nil _⟩
  | breaks _ => exact ⟨fun _ => _, rfl, .nil _⟩
  | converges hpass _ => exact ⟨fun _ => _, rfl, .single hpass⟩
  | leaves hpass _ _ => exact ⟨fun _ => _, rfl, .single hpass⟩
  | goes hpass _ hvalue _ ih =>
    obtain ⟨states, hstates, hfollows⟩ := ih
    exact ⟨_, rfl, .cons hpass hvalue hstates hfollows⟩

theorem Makes.step_of_mem {budget iteration : Nat} {s : S} {run : Run}
    (h : Makes scheme f config budget iteration s run) {r : Iteration} (hr : r ∈ run.history) :
    ∃ next, r.nextX = some next ∧ next.isFinite ∧
      r.error = config.stoppingRule.error r.x next (f.eval next).toOption := by
  obtain ⟨states, -, hfollows⟩ := h.follows
  exact hfollows.step_of_mem hr

/-- **The history follows the method.** -/
theorem iterate_follows (scheme : Scheme S) (f : Formula) (config : SolverConfig)
    (observer : Observer σ) (budget iteration : Nat) (s : S) (o : σ) :
    ∃ states, states 0 = s ∧ Follows scheme f config.stoppingRule iteration states
      (scheme.iterate f config observer budget iteration s o).1.history :=
  (iterate_makes scheme f config observer budget iteration s o).follows

/-- A converged run ends where its last record leads, and has counted its records. -/
theorem Makes.last_of_converged {budget iteration : Nat} {s : S} {run : Run}
    (h : Makes scheme f config budget iteration s run) {root : Float} {value : Option Float}
    (hend : run.ending = .converged root value) :
    ∃ r, run.history.getLast? = some r ∧ r.nextX = some root ∧ value = (f.eval root).toOption ∧
      run.total = iteration + run.history.length := by
  induction h with
  | exhausted | cancelled | breaks | leaves => cases hend
  | converges hpass _ =>
    cases hend
    obtain ⟨divisor, next, -, -, -, -, rfl⟩ := advance_eq_ok.1 hpass
    exact ⟨_, rfl, rfl, rfl, rfl⟩
  | goes _ _ _ _ ih =>
    obtain ⟨r, hr, hnext, hvalue, htotal⟩ := ih hend
    refine ⟨r, ?_, hnext, hvalue, ?_⟩
    · simp [Run.after, List.getLast?_cons, hr]
    · simp only [Run.after, htotal, List.cons_append, List.nil_append, List.length_cons]
      omega

theorem last_of_converged {budget iteration : Nat} {s : S} {o : σ} {observer : Observer σ}
    {root : Float} {value : Option Float} {run : Run}
    (hrun : (scheme.iterate f config observer budget iteration s o).1 = run)
    (h : run.ending = .converged root value) :
    ∃ r, run.history.getLast? = some r ∧ r.nextX = some root ∧ value = (f.eval root).toOption ∧
      run.total = iteration + run.history.length :=
  (hrun ▸ iterate_makes scheme f config observer budget iteration s o).last_of_converged h

end Scheme

namespace Run

variable {run : Run} {method : Method} {f : Formula} {config : SolverConfig}

@[simp] theorem toResult_iterations :
    (run.toResult method f config).iterations = run.history := by
  unfold toResult
  split
  rfl

@[simp] theorem toResult_totalIterations :
    (run.toResult method f config).totalIterations = run.total := by
  unfold toResult
  split
  rfl

theorem toResult_of_converged (method : Method) (f : Formula) (config : SolverConfig)
    {root : Float} {value : Option Float} (h : run.ending = .converged root value) :
    (run.toResult method f config).converged ∧ (run.toResult method f config).root = some root ∧
      (run.toResult method f config).functionValue = value := by
  simp [toResult, h]

theorem toResult_converged_iff : (run.toResult method f config).converged ↔
    ∃ root value, run.ending = .converged root value := by
  unfold toResult
  cases run.ending <;> simp

theorem toResult_failure_eq_some {e : SolverError} :
    (run.toResult method f config).failure = some e ↔ run.ending = .failed e := by
  unfold toResult
  cases run.ending <;> simp

theorem toResult_errorKind_eq_some {kind : SolverError.Kind} :
    (run.toResult method f config).errorKind = some kind ↔
      ∃ e, run.ending = .failed e ∧ e.kind = kind := by
  unfold toResult
  cases run.ending <;> simp

end Run

/-! ## Finite values -/

theorem Formula.eval_isFinite {f : Formula} {x v : Float} (h : f.eval x = .ok v) : v.isFinite :=
  Expr.eval_isFinite h

theorem Formula.slope_isFinite {f : Formula} {options : DerivativeOptions} {x v : Float}
    (h : f.slope options x = .ok v) : v.isFinite := by
  unfold slope at h
  split at h
  · rename_i value hvalue
    cases h
    split at hvalue
    · obtain ⟨derivative, -, hv⟩ := Option.bind_eq_some_iff.1 hvalue
      exact Expr.eval_isFinite (toOption_eq_some.1 hv)
    · cases hvalue
  · obtain ⟨forward, -, h⟩ := bind_eq_ok.1 h
    obtain ⟨backward, -, h⟩ := bind_eq_ok.1 h
    obtain ⟨rfl, hv⟩ := finite_eq_ok h
    exact hv

end RealRoots
