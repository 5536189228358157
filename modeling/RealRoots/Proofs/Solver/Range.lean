import RealRoots.Proofs.Record.Stored
import RealRoots.Proofs.Solver.Screening

/-!
# The doubles of a result

**Theorem (`finite_and_stored_iff_inRange`).** In the result of a run every iterate, function value,
derivative, root and convergence rate is finite. Its errors and its failure are finite too, and so
its record is read back, if and only if the run stays in range.

Three things are not screened: the length of a step, the distance of the guesses, and the points at
which a central difference evaluates the formula. A derivative that fails there reports the point.

* `Newton.InRange`, `Secant.InRange`: none of these overflows where the result would show it.
* `Newton.isFinite_iff_inRange`, `Secant.isFinite_iff_inRange`: then the result is finite, and only
  then.
-/

namespace RealRoots

variable {f : Formula} {rule : StoppingRule}

/-! ## Newton-Raphson -/

namespace Newton

/-- The error is not that the formula has no value at a point of the central difference about `x`
that overflows. -/
def PointsInRange (f : Formula) (options : DerivativeOptions) (x : Float) (e : SolverError) :
    Prop :=
  ∀ point, point = x + options.step ∨ point = x - options.step → NoValue f point e →
    point.isFinite

/-- **The run stays in range.** No step has a length that overflows under the step size rule, and
the run does not fail at a point of a central difference that overflows. -/
structure InRange (f : Formula) (input : NewtonInput) (result : RootResult) : Prop where
  steps : ∀ it ∈ result.iterations, StepInRange input.config.stoppingRule it
  points : ∀ e, result.failure = some e →
    PointsInRange f input.derivative (current input.x0 result.iterations) e

variable {input : NewtonInput} {run : Run} {records : List Iteration} {value : Float}

theorem inRange_toResult_iff : InRange f input
    (Run.toResult { run with history := records } .newtonRaphson f input.config) ↔
      (∀ it ∈ records, StepInRange input.config.stoppingRule it) ∧
      ∀ e, run.ending = .failed e →
        PointsInRange f input.derivative (current input.x0 records) e := by
  constructor
  · rintro ⟨hsteps, hpoints⟩
    simp only [Run.toResult_iterations, Run.toResult_failure_eq_some] at hsteps hpoints
    exact ⟨hsteps, hpoints⟩
  · rintro ⟨hsteps, hpoints⟩
    constructor <;> simpa only [Run.toResult_iterations, Run.toResult_failure_eq_some]

theorem pointsInRange_of_finite {options : DerivativeOptions} {x : Float} {e : SolverError}
    (h : ∀ y ∈ e.numbers, y.isFinite) : PointsInRange f options x e :=
  fun _ _ hno => hno.numbers_isFinite_iff.1 h

/-- The record of the root is screened. -/
theorem finalPoint_finiteInRange
    (h : (scheme f input.derivative).Makes f input.config input.config.maxIterations 0
      ⟨input.x0, value⟩ run) {it : Iteration}
    (hit : finalPoint? f input.derivative run = some it) : it.FiniteInRange rule := by
  obtain ⟨root, value, d, hending, hd, rfl⟩ := finalPoint?_eq_some.1 hit
  obtain ⟨hroot, hvalue⟩ := h.root_isFinite root _ hending
  refine Iteration.IsScreened.finiteInRange ⟨hroot, hvalue value rfl, ?_, nofun⟩ rfl rfl
  rintro _ ⟨⟩
  exact Formula.slope_isFinite hd

/-- The error of a pass from a finite point of the graph. -/
theorem advance_error_isFinite {p : Point} {i : Nat} {e : SolverError} (hp : OnGraph f p)
    (hpoints : PointsInRange f input.derivative p.x e)
    (h : (scheme f input.derivative).advance f input.config.stoppingRule i p = .error e) :
    ∀ x ∈ e.numbers, x.isFinite := by
  obtain hslope | ⟨d, -, ⟨hsmall, rfl⟩ | ⟨-, -, rfl⟩⟩ := Scheme.advance_eq_error.1 h
  · obtain ⟨e', hfails, rfl⟩ := mapError_eq_error.1 hslope
    obtain hforward | hbackward | hx := Formula.slope_eq_error hfails
    · have hno : NoValue f (p.x + input.derivative.step) (.ofEvalError e') := ⟨e', hforward, rfl⟩
      exact hno.numbers_isFinite_iff.2 (hpoints _ (.inl rfl) hno)
    · have hno : NoValue f (p.x - input.derivative.step) (.ofEvalError e') := ⟨e', hbackward, rfl⟩
      exact hno.numbers_isFinite_iff.2 (hpoints _ (.inr rfl) hno)
    · refine List.forall_mem_singleton.2 ?_
      rw [hx]
      exact hp.1
  · exact List.forall_mem_cons.2 ⟨hp.1, List.forall_mem_singleton.2 (isFinite_of_abs_lt hsmall)⟩
  · exact List.forall_mem_singleton.2 hp.1

/-- The error of a run of passes is finite, unless the run fails at a point of a central difference
that overflows. -/
theorem failure_isFinite_iff (hx0 : input.x0.isFinite) (hvalue : f.eval input.x0 = .ok value)
    (h : (scheme f input.derivative).Makes f input.config input.config.maxIterations 0
      ⟨input.x0, value⟩ run) {e : SolverError} (hend : run.ending = .failed e) :
    (∀ x ∈ e.numbers, x.isFinite) ↔
      PointsInRange f input.derivative (current input.x0 run.history) e := by
  refine ⟨pointsInRange_of_finite, fun hpoints => ?_⟩
  obtain rfl | ⟨i, rfl⟩ | ⟨i, p, hp, hcurrent, hpass⟩ | ⟨hfinite, hno⟩ :=
    h.fails (I := OnGraph f) (fun _ _ => rfl) ⟨hx0, hvalue⟩ (fun _ p _ hx hfx => ⟨hx, hfx⟩) hend
  · nofun
  · nofun
  · have hx : p.x = current input.x0 run.history := hcurrent
    rw [← hx] at hpoints
    exact advance_error_isFinite hp hpoints hpass
  · exact hno.numbers_isFinite_iff.2 hfinite

/-- A run that fails at the guess is in range. -/
theorem isFinite_iff_inRange_of_failing {e : SolverError} (hx0 : input.x0.isFinite)
    (htolerance : isPositive input.config.tolerance) (hno : NoValue f input.x0 e) :
    ((Run.failing e 0).toResult .newtonRaphson f input.config).IsScreened ∧
      (((Run.failing e 0).toResult .newtonRaphson f input.config).IsFinite ↔
        InRange f input ((Run.failing e 0).toResult .newtonRaphson f input.config)) := by
  have hscreened := Run.isScreened_failing .newtonRaphson f e htolerance [] (List.forall_mem_nil _)
  have hnumbers := hno.numbers_isFinite_iff.2 hx0
  refine ⟨hscreened, iff_of_true ?_ ?_⟩
  · refine (Run.isFinite_toResult_iff hscreened).2 ⟨List.forall_mem_nil _, ?_⟩
    rintro _ ⟨⟩
    exact hnumbers
  · refine (@inRange_toResult_iff f input (.failing e 0) []).2 ⟨List.forall_mem_nil _, ?_⟩
    rintro _ ⟨⟩
    exact pointsInRange_of_finite hnumbers

/-- **A result is screened, and it is finite if and only if the run stays in range.** -/
theorem isFinite_iff_inRange {σ : Type} (f : Formula) {input : NewtonInput}
    (h : input.validate = .ok ()) (observer : Observer σ) (o : σ) :
    (runWith f input observer o).1.IsScreened ∧
      ((runWith f input observer o).1.IsFinite ↔
        InRange f input (runWith f input observer o).1) := by
  obtain ⟨hx0, ⟨htolerance, -⟩, -⟩ := NewtonInput.validate_eq_ok.1 h
  obtain ⟨e, he, hresult⟩ | ⟨value, run, records, hvalue, hmakes, hsteps, ⟨final, hhistory, hfinal⟩,
      hresult⟩ := runWith_cases f input observer o <;> rw [hresult]
  · exact isFinite_iff_inRange_of_failing hx0 htolerance ⟨e, he, rfl⟩
  · have hderivative (p : Point) (divisor d : Float)
        (hdivisor : (scheme f input.derivative).divisor p = .ok divisor)
        (hd : (scheme f input.derivative).derivative divisor = some d) : d.isFinite := by
      cases hd
      exact Formula.slope_isFinite (mapError_eq_ok.1 hdivisor)
    have hfinite (it : Iteration) (hit : it ∈ records) :
        it.FiniteInRange input.config.stoppingRule := by
      rw [hhistory, List.mem_append, Option.mem_toList] at hit
      obtain hit | hit := hit
      · exact hmakes.finiteInRange (fun _ _ => rfl) hx0 hvalue hderivative hit
      · exact finalPoint_finiteInRange hmakes (hfinal it hit)
    have hcurrent : current input.x0 run.history = current input.x0 records := by
      rw [← current_steps _ records, hsteps]
    have hscreened := Run.isScreened_toResult .newtonRaphson f htolerance
      (fun it hit => (hfinite it hit).isScreened) hmakes.root_isFinite
    refine ⟨hscreened, ?_⟩
    rw [Run.isFinite_toResult_iff hscreened, inRange_toResult_iff]
    refine and_congr (forall₂_congr fun it hit => (hfinite it hit).error_iff) ?_
    refine forall₂_congr fun e hend => ?_
    rw [failure_isFinite_iff hx0 hvalue hmakes hend, hcurrent]

end Newton

/-! ## Secant -/

namespace Secant

/-- **The run stays in range.** Under the step size rule the distance of the guesses does not
overflow, once both are recorded, and neither does the length of a step. -/
structure InRange (input : SecantInput) (result : RootResult) : Prop where
  guesses : input.config.stoppingRule = .stepSize → 1 < result.iterations.length →
    (input.x1 - input.x0).isFinite
  steps : ∀ it ∈ result.iterations, StepInRange input.config.stoppingRule it

variable {input : SecantInput} {run : Run} {records : List Iteration} {f0 f1 : Float}

theorem inRange_toResult_iff : InRange input
    (Run.toResult { run with history := records } .secant f input.config) ↔
      (input.config.stoppingRule = .stepSize → 1 < records.length →
        (input.x1 - input.x0).isFinite) ∧
      ∀ it ∈ records, StepInRange input.config.stoppingRule it := by
  constructor
  · rintro ⟨hguesses, hsteps⟩
    rw [Run.toResult_iterations] at hguesses hsteps
    exact ⟨hguesses, hsteps⟩
  · rintro ⟨hguesses, hsteps⟩
    constructor <;> rwa [Run.toResult_iterations]

theorem firstSeed_isScreened (hx0 : input.x0.isFinite) (h0 : f.eval input.x0 = .ok f0) :
    (firstSeed ⟨input.x0, f0⟩).IsScreened :=
  ⟨hx0, Formula.eval_isFinite h0, nofun, nofun⟩

theorem secondSeed_isScreened (rule : StoppingRule) (p : Point) (hx1 : input.x1.isFinite)
    (h1 : f.eval input.x1 = .ok f1) : (secondSeed rule p ⟨input.x1, f1⟩).IsScreened :=
  ⟨hx1, Formula.eval_isFinite h1, nofun, nofun⟩

/-- The errors of a run that records both guesses. -/
theorem errorsFinite_iff (h1 : f.eval input.x1 = .ok f1)
    (hrecords : ∀ it ∈ records, it.FiniteInRange rule) :
    ErrorsFinite (firstSeed ⟨input.x0, f0⟩ ::
        secondSeed rule ⟨input.x0, f0⟩ ⟨input.x1, f1⟩ :: records) ↔
      (rule = .stepSize → (input.x1 - input.x0).isFinite) ∧
        ∀ it ∈ records, StepInRange rule it := by
  have hvalue (v : Float) (hv : some f1 = some v) : v.isFinite :=
    Option.some.inj hv ▸ Formula.eval_isFinite h1
  have hguesses := StoppingRule.error_isFinite_iff rule input.x0 input.x1 hvalue
  rw [ErrorsFinite, List.forall_mem_cons, List.forall_mem_cons]
  constructor
  · rintro ⟨-, hsecond, hpasses⟩
    exact ⟨hguesses.1 hsecond, fun it hit => (hrecords it hit).error_iff.1 (hpasses it hit)⟩
  · rintro ⟨hdistance, hsteps⟩
    exact ⟨nofun, hguesses.2 hdistance,
      fun it hit => (hrecords it hit).error_iff.2 (hsteps it hit)⟩

/-- The errors of a run of passes from finite guesses. -/
theorem failure_isFinite (hx0 : input.x0.isFinite) (hx1 : input.x1.isFinite)
    (h : scheme.Makes f input.config (input.config.maxIterations - 1) 1
      ⟨⟨input.x0, f0⟩, ⟨input.x1, f1⟩⟩ run) {e : SolverError} (hend : run.ending = .failed e) :
    ∀ x ∈ e.numbers, x.isFinite := by
  obtain rfl | ⟨i, rfl⟩ | ⟨i, pair, ⟨hprev, hcurr⟩, -, hpass⟩ | ⟨hfinite, hno⟩ :=
    h.fails (I := fun pair => pair.prev.x.isFinite ∧ pair.curr.x.isFinite) (fun _ _ => rfl)
      ⟨hx0, hx1⟩ (fun _ _ hpair hx _ => ⟨hpair.2, hx⟩) hend
  · nofun
  · nofun
  · obtain hdivisor | ⟨difference, -, ⟨hsmall, rfl⟩ | ⟨-, -, rfl⟩⟩ :=
      Scheme.advance_eq_error.1 hpass
    · cases hdivisor
    · refine List.forall_mem_cons.2 ⟨hprev, List.forall_mem_cons.2 ⟨hcurr, ?_⟩⟩
      exact List.forall_mem_singleton.2 (isFinite_of_abs_lt hsmall)
    · exact List.forall_mem_singleton.2 hcurr
  · exact hno.numbers_isFinite_iff.2 hfinite

/-- A run that fails at a guess is in range. -/
theorem isFinite_iff_inRange_of_failing {e : SolverError}
    (htolerance : isPositive input.config.tolerance)
    (hrecords : ∀ it ∈ records, it.FiniteInRange input.config.stoppingRule)
    (hlength : records.length ≤ 1) (hnumbers : ∀ x ∈ e.numbers, x.isFinite) :
    (Run.toResult { Run.failing e 0 with history := records } .secant f
      input.config).IsScreened ∧
    ((Run.toResult { Run.failing e 0 with history := records } .secant f input.config).IsFinite ↔
      InRange input (Run.toResult { Run.failing e 0 with history := records } .secant f
        input.config)) := by
  have hscreened := Run.isScreened_failing .secant f e htolerance records
    fun it hit => (hrecords it hit).isScreened
  refine ⟨hscreened, ?_⟩
  rw [Run.isFinite_toResult_iff hscreened, inRange_toResult_iff, and_comm]
  refine and_congr (iff_of_true ?_ fun _ hlt => absurd hlt (by omega))
    (forall₂_congr fun it hit => (hrecords it hit).error_iff)
  rintro _ ⟨⟩
  exact hnumbers

/-- **A result is screened, and it is finite if and only if the run stays in range.** -/
theorem isFinite_iff_inRange {σ : Type} (f : Formula) {input : SecantInput}
    (h : input.validate = .ok ()) (observer : Observer σ) (o : σ) :
    (runWith f input observer o).1.IsScreened ∧
      ((runWith f input observer o).1.IsFinite ↔
        InRange input (runWith f input observer o).1) := by
  obtain ⟨hx0, hx1, -, htolerance, -⟩ := SecantInput.validate_eq_ok.1 h
  obtain ⟨e, he, hresult⟩ | ⟨f0, e, h0, he, hresult⟩ |
    ⟨f0, f1, run, records, h0, h1, hmakes, -, rfl, hresult⟩ := runWith_cases f input observer o <;>
    rw [hresult]
  · have hno : NoValue f input.x0 (.ofEvalError e) := ⟨e, he, rfl⟩
    exact isFinite_iff_inRange_of_failing htolerance (List.forall_mem_nil _) (Nat.zero_le _)
      (hno.numbers_isFinite_iff.2 hx0)
  · have hno : NoValue f input.x1 (.ofEvalError e) := ⟨e, he, rfl⟩
    have hfirst : (firstSeed ⟨input.x0, f0⟩).FiniteInRange input.config.stoppingRule :=
      (firstSeed_isScreened hx0 h0).finiteInRange rfl rfl
    exact isFinite_iff_inRange_of_failing htolerance (List.forall_mem_singleton.2 hfirst)
      (Nat.le_refl _) (hno.numbers_isFinite_iff.2 hx1)
  · have hpasses (it : Iteration) (hit : it ∈ run.history) :
        it.FiniteInRange input.config.stoppingRule :=
      hmakes.finiteInRange (fun _ _ => rfl) hx1 h1 (fun _ _ _ _ hd => by cases hd) hit
    have hsecond := secondSeed_isScreened input.config.stoppingRule ⟨input.x0, f0⟩ hx1 h1
    have hscreened := Run.isScreened_toResult .secant f htolerance
      (List.forall_mem_cons.2 ⟨firstSeed_isScreened hx0 h0, List.forall_mem_cons.2
        ⟨hsecond, fun it hit => (hpasses it hit).isScreened⟩⟩) hmakes.root_isFinite
    refine ⟨hscreened, ?_⟩
    rw [Run.isFinite_toResult_iff hscreened, inRange_toResult_iff, errorsFinite_iff h1 hpasses,
      List.forall_mem_cons, List.forall_mem_cons]
    constructor
    · rintro ⟨⟨hdistance, hsteps⟩, -⟩
      exact ⟨fun hrule _ => hdistance hrule, stepInRange_of_nextX_eq_none rfl,
        stepInRange_of_nextX_eq_none rfl, hsteps⟩
    · rintro ⟨hdistance, -, -, hsteps⟩
      exact ⟨⟨fun hrule => hdistance hrule (by simp), hsteps⟩,
        fun e hend => failure_isFinite hx0 hx1 hmakes hend⟩

end Secant

/-- Apart from errors and failure the result is finite. It is finite altogether, and its record is
read back, if the condition holds and only then. -/
structure RootResult.FiniteIff (r : RootResult) (condition : Prop) : Prop where
  isScreened : r.IsScreened
  isFinite_iff : r.IsFinite ↔ condition
  readsBack_iff : ∀ id created,
    ReadsBack (Record.ofOutcome id created (.single r)) ↔ condition

theorem RootResult.IsScreened.finiteIff_timed {r : RootResult} {condition : Prop} {ms : Float}
    (h : r.IsScreened) (hiff : r.IsFinite ↔ condition) (hms : ms.isFinite) :
    (r.timed ms).FiniteIff condition := by
  have htimed := h.timed hms
  have hfinite : (r.timed ms).IsFinite ↔ condition := by
    rw [← hiff, h.isFinite_iff, htimed.isFinite_iff]
    rfl
  exact ⟨htimed, hfinite, fun _ _ => Record.readsBack_single_iff.trans hfinite⟩

/-- **The doubles of a result are finite, and its record is read back, if and only if the run stays
in range.** This is so for a run that took any finite time. -/
theorem finite_and_stored_iff_inRange {σ : Type} (f : Formula) (observer : Observer σ) (o : σ)
    {ms : Float} (hms : ms.isFinite) :
    (∀ input : NewtonInput, input.validate = .ok () →
      ((Newton.runWith f input observer o).1.timed ms).FiniteIff
        (Newton.InRange f input (Newton.runWith f input observer o).1)) ∧
    ∀ input : SecantInput, input.validate = .ok () →
      ((Secant.runWith f input observer o).1.timed ms).FiniteIff
        (Secant.InRange input (Secant.runWith f input observer o).1) := by
  constructor
  · intro input h
    obtain ⟨hscreened, hiff⟩ := Newton.isFinite_iff_inRange f h observer o
    exact hscreened.finiteIff_timed hiff hms
  · intro input h
    obtain ⟨hscreened, hiff⟩ := Secant.isFinite_iff_inRange f h observer o
    exact hscreened.finiteIff_timed hiff hms

/-- The runs for `x` stay in range, so their records are read back. -/
theorem identity_stored :
    let f : Formula := ⟨"x", .x⟩
    let newton : NewtonInput := { expression := "x", x0 := 1, derivative := .shortcut }
    let secant : SecantInput := { expression := "x", x0 := 2, x1 := 1 }
    let q := (Newton.runWith f newton .silent ()).1
    let r := (Secant.runWith f secant .silent ()).1
    (newton.validate = .ok () ∧ Newton.InRange f newton q ∧
      ∀ id created, ReadsBack (Record.ofOutcome id created (.single (q.timed 1)))) ∧
    secant.validate = .ok () ∧ Secant.InRange secant r ∧
      ∀ id created, ReadsBack (Record.ofOutcome id created (.single (r.timed 1))) := by
  intro f newton secant q r
  have hms : (1 : Float).isFinite := by decide +kernel
  have hnewton : newton.validate = .ok () := NewtonInput.validate_eq_ok.2 (by decide +kernel)
  have hsecant : secant.validate = .ok () := SecantInput.validate_eq_ok.2 (by decide +kernel)
  have hq := (finite_and_stored_iff_inRange f .silent () hms).1 newton hnewton
  have hr := (finite_and_stored_iff_inRange f .silent () hms).2 secant hsecant
  have hqRange : Newton.InRange f newton q := hq.isFinite_iff.1 (by decide +kernel)
  have hrRange : Secant.InRange secant r := hr.isFinite_iff.1 (by decide +kernel)
  exact ⟨⟨hnewton, hqRange, fun id created => (hq.readsBack_iff id created).2 hqRange⟩,
    hsecant, hrRange, fun id created => (hr.readsBack_iff id created).2 hrRange⟩

/-- The distance of the guesses `1e308` and `-1e308` overflows, and so does a point of a central
difference beside the largest double. Neither result is finite, and neither record is read back. -/
theorem overflow_not_stored :
    let f : Formula := ⟨"x", .x⟩
    let secant : SecantInput := { expression := "x", x0 := 1e308, x1 := -1e308 }
    let newton : NewtonInput :=
      { expression := "x", x0 := 1.7976931348623157e308, derivative := { step := 1e300 } }
    let r := (Secant.runWith f secant .silent ()).1
    let q := (Newton.runWith f newton .silent ()).1
    (secant.validate = .ok () ∧ (∃ (it : Iteration) (x : Float), r.iterations[1]? = some it ∧
      it.error = some x ∧ ¬ x.isFinite) ∧ ¬ r.IsFinite ∧
      ∀ id created, ¬ ReadsBack (Record.ofOutcome id created (.single r))) ∧
    newton.validate = .ok () ∧ (∃ x reason, q.failure = some (.evaluation x reason) ∧
      ¬ x.isFinite) ∧ ¬ q.IsFinite ∧
      ∀ id created, ¬ ReadsBack (Record.ofOutcome id created (.single q)) := by
  intro f secant newton r q
  have hsecant : secant.validate = .ok () := SecantInput.validate_eq_ok.2 (by decide +kernel)
  have hnewton : newton.validate = .ok () := NewtonInput.validate_eq_ok.2 (by decide +kernel)
  have hr : ¬ r.IsFinite := by decide +kernel
  have hq : ¬ q.IsFinite := by decide +kernel
  refine ⟨⟨hsecant, ?_, hr, ?_⟩, hnewton, ?_, hq, ?_⟩
  · refine ⟨{ index := 1, x := -1e308, fx := -1e308, error := some (1 / 0) }, 1 / 0, ?_⟩
    decide +kernel
  · exact fun _ _ h => hr (Record.readsBack_single_iff.1 h)
  · refine ⟨1 / 0, "result is not a finite number at x = inf", ?_⟩
    decide +kernel
  · exact fun _ _ h => hq (Record.readsBack_single_iff.1 h)

end RealRoots
