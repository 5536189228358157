import RealRoots.Proofs.Number.Zeros
import RealRoots.Proofs.Solver.Divisors
import RealRoots.Proofs.Solver.Places

/-!
# Exact zeros

**Theorem (`exact_zero_ends_run`).** Under the step size rule, a run that comes to an exact zero of
the formula ends there. The pass from it converges, with an error of zero and a root that equals the
iterate, unless its divisor is too small or the secant method would step over an infinite distance.
So a second guess at a zero is found in two iterations.

At a zero of either sign the quotient of the update is a zero (`IsZero.div`), and a step of a zero
goes nowhere (`IsZero.step`). This needs a finite iterate with the function value of the formula,
which every place of a run has (`Scheme.Reaches.keeps`). Whether the formula has a value where the
step ends does not matter, since the error is judged before.
-/

namespace RealRoots

open Newton (OnGraph)

variable {S σ : Type} {f : Formula} {config : SolverConfig} {observer : Observer σ} {o : σ}

theorem not_isZero_of_le_abs {x : Float} (h : singularityThreshold ≤ x.abs) : ¬ IsZero x := by
  intro hx
  rw [hx.abs] at h
  exact absurd h (by decide +kernel)

/-! ## The end of a run -/

/-- The run ended because an observer stopped it. -/
def RootResult.IsCancelled (r : RootResult) : Prop :=
  r.errorKind = some .cancelled

instance (r : RootResult) : Decidable r.IsCancelled :=
  inferInstanceAs (Decidable (_ = _))

/-- **The run ends with the pass that the step is shown before.** It converges to the iterate of the
step, with a step of length zero. -/
structure RootResult.EndsAt (result : RootResult) (f : Formula) (step : Step) : Prop where
  converged : result.converged
  totalIterations_eq : result.totalIterations = step.iteration + 1
  last : ∃ r root, result.steps.getLast? = some r ∧ step.Shows r ∧ r.error = some 0 ∧
    r.nextX = some root ∧ result.root = some root ∧ root == step.x ∧
    result.functionValue = (f.eval root).toOption

/-! ## Steps of length zero -/

namespace Scheme

variable {scheme : Scheme S} {s : S} {i : Nat}

/-- The pass takes a step of length zero. -/
def StandsStill (scheme : Scheme S) (f : Formula) (rule : StoppingRule) (i : Nat) (s : S) : Prop :=
  ∃ pass, scheme.advance f rule i s = .ok pass ∧ pass.next == (scheme.point s).x ∧
    pass.record.error = some 0

/-- A pass stands still if its update takes a zero from a finite iterate. -/
theorem standsStill_of_isZero {d z : Float} (hd : scheme.divisor s = .ok d)
    (hlarge : singularityThreshold ≤ d.abs)
    (hupdate : scheme.update s d = (scheme.point s).x - z) (hz : IsZero z)
    (hx : (scheme.point s).x.isFinite) : scheme.StandsStill f .stepSize i s := by
  obtain ⟨hfinite, hbeq, hlength⟩ := hz.step hx
  refine ⟨_, advance_eq_ok.2 ⟨d, _, hd, not_lt_of_le hlarge, hupdate.symm, hfinite, rfl⟩, hbeq, ?_⟩
  rw [← hlength]
  rfl

/-- Where a pass leads is a point of the graph. -/
theorem onGraph_of_advance {rule : StoppingRule} {pass : Advance} {value : Float}
    (hpass : scheme.advance f rule i s = .ok pass) (hvalue : pass.value = .ok value) :
    OnGraph f ⟨pass.next, value⟩ := by
  obtain ⟨divisor, next, -, -, -, hfinite, rfl⟩ := advance_eq_ok.1 hpass
  exact ⟨hfinite, hvalue⟩

/-- **A run ends where it stands still**, if no observer stops it. -/
theorem Reaches.endsAt {p q : Place S σ} {records history : List Iteration} {run : Run} {last : σ}
    {method : Method} (h : scheme.Reaches f config observer p records q) (hbudget : 0 < q.budget)
    (htolerance : isPositive config.tolerance)
    (hstill : scheme.StandsStill f config.stoppingRule q.iteration q.state)
    (hrun : scheme.resume f config observer p = (run, last)) (hsteps : run.IsStepsOf history)
    (hcancelled : ¬ (Run.toResult { run with history } method f config).IsCancelled) :
    (Run.toResult { run with history } method f config).EndsAt f
      (scheme.step q.iteration q.state) := by
  obtain ⟨pass, hpass, hbeq, hzero⟩ := hstill
  obtain ⟨budget, iteration, s, o⟩ := q
  obtain ⟨budget, rfl⟩ := Nat.exists_eq_succ_of_ne_zero hbudget.ne'
  rw [h.resume_eq] at hrun
  rcases hlook : observer.look o (scheme.step iteration s) with ⟨signal, o'⟩
  cases signal with
  | stop =>
    rw [resume, iterate_stop config hlook] at hrun
    cases hrun
    exact absurd ((@Run.toResult_errorKind_eq_some ⟨history, .failed (.cancelled iteration), iteration⟩
      method f config _).2 ⟨_, rfl, rfl⟩) hcancelled
  | proceed =>
    have hsmall := any_isConverged_iff.2 (below_of_error_zero htolerance hzero)
    rw [resume, iterate_converges config hlook hpass hsmall] at hrun
    cases hrun
    obtain ⟨hnext, hvalue⟩ := advance_ends hpass
    obtain ⟨hconverged, hroot, hfunction⟩ := @Run.toResult_of_converged
      ⟨history, .converged pass.next pass.value.toOption, iteration + 1⟩ method f config _ _ rfl
    refine ⟨hconverged, Run.toResult_totalIterations, pass.record, pass.next, ?_, step_shows hpass,
      hzero, hnext, hroot, hbeq, hvalue ▸ hfunction⟩
    rw [hsteps.steps_toResult]
    exact List.getLast?_concat

end Scheme

/-! ## Newton-Raphson -/

namespace Newton

/-- An exact zero from which a pass may divide by the derivative. -/
structure IsRegularZero (f : Formula) (options : DerivativeOptions) (x : Float) : Prop where
  zero : ∃ z, f.eval x = .ok z ∧ z == 0
  slope : ∃ d, f.slope options x = .ok d ∧ singularityThreshold ≤ d.abs

variable {input : NewtonInput} {records : List Iteration} {q : Place Point σ}

theorem Visits.onGraph (h : Visits f input observer o records q) (hvalid : input.validate = .ok ()) :
    OnGraph f q.state := by
  obtain ⟨value, hvalue, hreaches⟩ := h
  exact hreaches.keeps (I := fun _ => OnGraph f) ⟨x0_isFinite hvalid, hvalue⟩
    fun _ hpass hvalue => Scheme.onGraph_of_advance hpass hvalue

theorem IsRegularZero.standsStill {p : Point} {i : Nat} (hp : OnGraph f p)
    (h : IsRegularZero f input.derivative p.x) :
    (scheme f input.derivative).StandsStill f .stepSize i p := by
  obtain ⟨⟨z, hz, hzero⟩, d, hd, hlarge⟩ := h
  obtain ⟨hx, hfx⟩ := hp
  obtain rfl : p.fx = z := Except.ok.inj (hfx.symm.trans hz)
  have hquotient : IsZero (p.fx / d) := (isZero_iff.2 hzero).div (not_isZero_of_le_abs hlarge)
    (not_isNaN_of_isFinite (Formula.slope_isFinite hd))
  exact Scheme.standsStill_of_isZero (mapError_eq_ok.2 hd) hlarge rfl hquotient hx

theorem Visits.endsAt (h : Visits f input observer o records q) (hbudget : 0 < q.budget)
    (hvalid : input.validate = .ok ()) (hrule : input.config.stoppingRule = .stepSize)
    (hcancelled : ¬ (runWith f input observer o).1.IsCancelled)
    (hzero : IsRegularZero f input.derivative q.state.x) :
    (runWith f input observer o).1.EndsAt f
      ((scheme f input.derivative).step q.iteration q.state) := by
  obtain ⟨-, ⟨htolerance, -⟩, -⟩ := NewtonInput.validate_eq_ok.1 hvalid
  have hstill := hrule ▸ hzero.standsStill (h.onGraph hvalid) (i := q.iteration)
  obtain ⟨value, hvalue, hreaches⟩ := h
  rcases hrun : (scheme f input.derivative).resume f input.config observer
    ⟨input.config.maxIterations, 0, ⟨input.x0, value⟩, o⟩ with ⟨run, last⟩
  obtain ⟨final, hfinish, -⟩ := finish_eq f input run
  have hsteps := isStepsOf_finish f input (Scheme.makes_of_iterate hrun).isStepsOf
  rw [runWith_of_ok input hvalue hrun, hfinish] at hcancelled ⊢
  rw [hfinish] at hsteps
  exact hreaches.endsAt hbudget htolerance hstill hrun hsteps hcancelled

end Newton

/-! ## Secant -/

namespace Secant

/-- An exact zero to which a pass may step from the iterate before. -/
structure IsRegularZero (f : Formula) (before x : Float) : Prop where
  zero : ∃ z, f.eval x = .ok z ∧ z == 0
  value : ∃ w, f.eval before = .ok w ∧ singularityThreshold ≤ w.abs
  isFinite : (x - before).isFinite

/-- The iterate before the one that the step is at: where the step before it begins, or the first
guess. -/
def before (input : SecantInput) (result : RootResult) (step : Step) : Float :=
  previous input.x0 (result.steps.take (step.iteration - 1))

variable {input : SecantInput} {records : List Iteration} {q : Place Pair σ}

theorem Visits.before_eq (h : Visits f input observer o records q) :
    before input (runWith f input observer o).1 (scheme.step q.iteration q.state) =
      previous input.x0 records := by
  obtain ⟨rest, hsteps⟩ := h.steps_eq
  have hcount : (scheme.step q.iteration q.state).iteration - 1 = records.length := by
    change q.iteration - 1 = records.length
    rw [h.iteration_eq, Nat.add_sub_cancel_left]
  rw [before, hsteps, hcount, List.take_left']
  rfl

/-- The earlier point of a pair is that of the graph at `x`, and the later one is on the graph. -/
def PairOnGraph (f : Formula) (x : Float) (pair : Pair) : Prop :=
  PointAt f x pair.prev ∧ OnGraph f pair.curr

theorem Visits.pairOnGraph (h : Visits f input observer o records q)
    (hvalid : input.validate = .ok ()) : PairOnGraph f (previous input.x0 records) q.state := by
  obtain ⟨-, hx1, -⟩ := SecantInput.validate_eq_ok.1 hvalid
  obtain ⟨f0, f1, h0, h1, hreaches⟩ := h
  refine hreaches.keeps (I := fun records => PairOnGraph f (previous input.x0 records))
    ⟨⟨f0, h0, rfl⟩, hx1, h1⟩ ?_
  rintro records i pair pass value ⟨-, -, hcurr⟩ hpass hvalue
  refine ⟨?_, Scheme.onGraph_of_advance hpass hvalue⟩
  obtain ⟨divisor, next, -, -, -, -, rfl⟩ := Scheme.advance_eq_ok.1 hpass
  rw [previous_concat]
  exact ⟨pair.curr.fx, hcurr, rfl⟩

theorem IsRegularZero.standsStill {pair : Pair} {x : Float} {i : Nat} (hpair : PairOnGraph f x pair)
    (h : IsRegularZero f x pair.curr.x) : scheme.StandsStill f .stepSize i pair := by
  obtain ⟨prev, curr⟩ := pair
  obtain ⟨⟨z, hz, hzero⟩, ⟨w, hw, hlarge⟩, hfinite⟩ := h
  obtain ⟨⟨w', hw', rfl⟩, hx, hfx⟩ := hpair
  obtain rfl : w = w' := Except.ok.inj (hw.symm.trans hw')
  obtain rfl : curr.fx = z := Except.ok.inj (hfx.symm.trans hz)
  rw [← isZero_iff] at hzero
  -- The divisor has the size of the function value before.
  have hsize : (curr.fx - w).abs = w.abs := hzero.abs_sub (Formula.eval_isFinite hw)
  have hdivisor : (curr.fx - w).isFinite := by
    rw [← abs_isFinite, hsize, abs_isFinite]
    exact Formula.eval_isFinite hw
  rw [← hsize] at hlarge
  have hquotient : IsZero (curr.fx * (curr.x - x) / (curr.fx - w)) :=
    (hzero.mul_finite hfinite).div (not_isZero_of_le_abs hlarge) (not_isNaN_of_isFinite hdivisor)
  exact Scheme.standsStill_of_isZero rfl hlarge rfl hquotient hx

theorem Visits.endsAt (h : Visits f input observer o records q) (hbudget : 0 < q.budget)
    (hvalid : input.validate = .ok ()) (hrule : input.config.stoppingRule = .stepSize)
    (hcancelled : ¬ (runWith f input observer o).1.IsCancelled)
    (hzero : IsRegularZero f (previous input.x0 records) q.state.curr.x) :
    (runWith f input observer o).1.EndsAt f (scheme.step q.iteration q.state) := by
  obtain ⟨-, -, -, htolerance, -⟩ := SecantInput.validate_eq_ok.1 hvalid
  have hstill := hrule ▸ hzero.standsStill (h.pairOnGraph hvalid) (i := q.iteration)
  obtain ⟨f0, f1, h0, h1, hreaches⟩ := h
  rcases hrun : scheme.resume f input.config observer
    ⟨input.config.maxIterations - 1, 1, ⟨⟨input.x0, f0⟩, ⟨input.x1, f1⟩⟩, o⟩ with ⟨run, last⟩
  rw [runWith_of_ok input h0 h1 hrun] at hcancelled ⊢
  have hsteps : run.IsStepsOf (firstSeed ⟨input.x0, f0⟩ ::
      secondSeed input.config.stoppingRule ⟨input.x0, f0⟩ ⟨input.x1, f1⟩ :: run.history) :=
    (Scheme.makes_of_iterate hrun).isStepsOf
  exact hreaches.endsAt hbudget htolerance hstill hrun hsteps hcancelled

end Secant

/-- **A run that comes to an exact zero ends with it**, and with a second guess at an exact zero it
does so in two iterations. -/
theorem exact_zero_ends_run {σ : Type} (f : Formula) (observer : Observer σ) (o : σ) :
    (∀ input : NewtonInput, input.validate = .ok () → input.config.stoppingRule = .stepSize →
      ¬ (Newton.runWith f input observer o).1.IsCancelled →
      ∀ step signal, (step, signal) ∈ Newton.log f input observer o →
        Newton.IsRegularZero f input.derivative step.x →
        (Newton.runWith f input observer o).1.EndsAt f step) ∧
    (∀ input : SecantInput, input.validate = .ok () → input.config.stoppingRule = .stepSize →
      ¬ (Secant.runWith f input observer o).1.IsCancelled →
      ∀ step signal, (step, signal) ∈ Secant.log f input observer o →
        Secant.IsRegularZero f (Secant.before input (Secant.runWith f input observer o).1 step)
          step.x →
        (Secant.runWith f input observer o).1.EndsAt f step) ∧
    ∀ input : SecantInput, input.validate = .ok () → input.config.stoppingRule = .stepSize →
      ¬ (Secant.runWith f input observer o).1.IsCancelled → 2 ≤ input.config.maxIterations →
      Secant.IsRegularZero f input.x0 input.x1 →
      ∃ fx, (Secant.runWith f input observer o).1.totalIterations = 2 ∧
        (Secant.runWith f input observer o).1.EndsAt f ⟨.secant, 1, input.x1, fx⟩ := by
  refine ⟨?_, ?_, ?_⟩
  · intro input hvalid hrule hcancelled step signal hlog hzero
    obtain ⟨records, q, hvisits, hbudget, hentry⟩ := Newton.visits_of_mem_log hlog
    cases hentry
    exact hvisits.endsAt hbudget hvalid hrule hcancelled hzero
  · intro input hvalid hrule hcancelled step signal hlog hzero
    obtain ⟨records, q, hvisits, hbudget, hentry⟩ := Secant.visits_of_mem_log hlog
    cases hentry
    rw [hvisits.before_eq] at hzero
    exact hvisits.endsAt hbudget hvalid hrule hcancelled hzero
  · intro input hvalid hrule hcancelled hbudget hzero
    obtain ⟨z, hz, -⟩ := hzero.zero
    obtain ⟨w, hw, -⟩ := hzero.value
    have hvisits : Secant.Visits f input observer o [] ⟨_, _, ⟨⟨input.x0, w⟩, ⟨input.x1, z⟩⟩, o⟩ :=
      ⟨w, z, hw, hz, .here _⟩
    have hends := hvisits.endsAt (Nat.sub_pos_of_lt hbudget) hvalid hrule hcancelled hzero
    exact ⟨z, hends.totalIterations_eq, hends⟩

/-- The first steps for `x` come to its zero, which the next ones find. A second guess at `-0` is found
as a root too, which is `0`. -/
theorem identity_exact_zero :
    let f : Formula := ⟨"x", .x⟩
    let newton : NewtonInput := { expression := "x", x0 := 1, derivative := .shortcut }
    let secant : SecantInput := { expression := "x", x0 := 2, x1 := 1 }
    let guessed : SecantInput := { expression := "x", x0 := 1, x1 := -0 }
    let p : Step := ⟨.newtonRaphson, 1, 0, 0⟩
    let q : Step := ⟨.secant, 2, 0, 0⟩
    (newton.validate = .ok () ∧ (p, .proceed) ∈ Newton.log f newton .silent () ∧
      Newton.IsRegularZero f .shortcut 0 ∧ (Newton.runWith f newton .silent ()).1.EndsAt f p) ∧
    (secant.validate = .ok () ∧ (q, .proceed) ∈ Secant.log f secant .silent () ∧
      Secant.before secant (Secant.runWith f secant .silent ()).1 q = 1 ∧
      Secant.IsRegularZero f 1 0 ∧ (Secant.runWith f secant .silent ()).1.EndsAt f q) ∧
    guessed.validate = .ok () ∧ Secant.IsRegularZero f 1 (-0) ∧
      ∃ fx, (Secant.runWith f guessed .silent ()).1.totalIterations = 2 ∧
        (Secant.runWith f guessed .silent ()).1.EndsAt f ⟨.secant, 1, -0, fx⟩ := by
  intro f newton secant guessed p q
  have hnewton : newton.validate = .ok () := NewtonInput.validate_eq_ok.2 (by decide +kernel)
  have hsecant : secant.validate = .ok () := SecantInput.validate_eq_ok.2 (by decide +kernel)
  have hguessed : guessed.validate = .ok () := SecantInput.validate_eq_ok.2 (by decide +kernel)
  have hp : (p, .proceed) ∈ Newton.log f newton .silent () := by decide +kernel
  have hq : (q, .proceed) ∈ Secant.log f secant .silent () := by decide +kernel
  have hbefore : Secant.before secant (Secant.runWith f secant .silent ()).1 q = 1 := by
    decide +kernel
  have hpzero : Newton.IsRegularZero f .shortcut 0 :=
    ⟨⟨0, rfl, by decide +kernel⟩, 1, toOption_eq_some.1 (by decide +kernel), by decide +kernel⟩
  have hqzero : Secant.IsRegularZero f 1 0 :=
    ⟨⟨0, rfl, by decide +kernel⟩, ⟨1, rfl, by decide +kernel⟩, by decide +kernel⟩
  have hzero : Secant.IsRegularZero f 1 (-0) :=
    ⟨⟨-0, rfl, by decide +kernel⟩, ⟨1, rfl, by decide +kernel⟩, by decide +kernel⟩
  refine ⟨⟨hnewton, hp, hpzero, ?_⟩, ⟨hsecant, hq, hbefore, hqzero, ?_⟩, hguessed, hzero, ?_⟩
  · exact (exact_zero_ends_run f .silent ()).1 newton hnewton rfl (by decide +kernel) p .proceed hp
      hpzero
  · exact (exact_zero_ends_run f .silent ()).2.1 secant hsecant rfl (by decide +kernel) q .proceed hq
      (hbefore ▸ hqzero)
  · exact (exact_zero_ends_run f .silent ()).2.2 guessed hguessed rfl (by decide +kernel)
      (by decide) hzero

end RealRoots
