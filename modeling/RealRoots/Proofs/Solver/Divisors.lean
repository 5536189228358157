import RealRoots.Proofs.Number.Doubles
import RealRoots.Proofs.Solver.Stopping

/-!
# What steps divide by

**Theorem (`divisors_are_sound`).** Each step of Newton-Raphson divides by a finite derivative that
is not too small. A step of the secant method divides by a difference that is not too small, and it
is finite unless the difference of two function values overflows.

A pass tests that its divisor is not too small, which an infinity is not either, and that the next
iterate is finite. A derivative is a function value or a screened quotient, so it is finite. The
difference of two finite function values is not screened. Where it overflows the quotient is zero,
so that the step goes nowhere: under the step size rule the run converges there.
-/

namespace RealRoots

/-- A number to divide by: finite, and not too small. -/
structure IsSoundDivisor (d : Float) : Prop where
  isFinite : d.isFinite
  not_small : singularityThreshold ≤ d.abs

instance (d : Float) : Decidable (IsSoundDivisor d) :=
  decidable_of_iff (d.isFinite ∧ singularityThreshold ≤ d.abs)
    ⟨fun h => ⟨h.1, h.2⟩, fun h => ⟨h.isFinite, h.not_small⟩⟩

theorem isSoundDivisor_iff {d : Float} (h : ¬ d.abs < singularityThreshold) :
    IsSoundDivisor d ↔ d.isFinite := by
  refine ⟨fun hd => hd.isFinite, fun hd => ⟨hd, ?_⟩⟩
  exact le_of_not_lt ((abs_isFinite d).trans hd) (by decide +kernel) h

/-! ## Steps of length zero -/

theorem below_of_error_zero {config : SolverConfig} (h : isPositive config.tolerance)
    {r : Iteration} (hr : r.error = some 0) : BelowTolerance config r := by
  rw [isPositive, Bool.and_eq_true] at h
  exact ⟨0, hr, of_decide_eq_true h.2⟩

/-- A step under the tolerance is the last one, and the run converges where it leads. -/
theorem StopsAtTolerance.of_below {f : Formula} {config : SolverConfig} {result : RootResult}
    (h : StopsAtTolerance f config result) {r : Iteration} {next : Float} (hr : r ∈ result.steps)
    (hnext : r.nextX = some next) (hbelow : BelowTolerance config r) :
    result.steps.getLast? = some r ∧ result.converged ∧ result.root = some next := by
  have hlast : result.steps.getLast? = some r := by
    cases heq : result.steps.getLast? with
    | none =>
      rw [List.getLast?_eq_none_iff.1 heq] at hr
      cases hr
    | some last =>
      obtain ⟨before, hsteps⟩ := List.getLast?_eq_some_iff.1 heq
      have hbefore := h.before r
      rw [hsteps, List.dropLast_concat] at hbefore
      rw [hsteps, List.mem_append, List.mem_singleton] at hr
      obtain hr | rfl := hr
      · exact absurd hbelow (hbefore hr)
      · rfl
  have hconverged : result.converged := h.converged_iff.2 ⟨r, hlast, hbelow⟩
  obtain ⟨last, root, hlast', hnext', hroot, -⟩ := h.root hconverged
  obtain rfl : r = last := Option.some.inj (hlast.symm.trans hlast')
  exact ⟨hlast, hconverged, hroot.trans (hnext'.symm.trans hnext)⟩

/-! ## Newton-Raphson -/

namespace Newton

/-- The step of the record divides by the derivative that it records. -/
structure DividesBy (f : Formula) (input : NewtonInput) (r : Iteration) (d : Float) : Prop where
  derivative_eq : r.derivative = some d
  slope_eq : f.slope input.derivative r.x = .ok d
  nextX_eq : r.nextX = some (r.x - r.fx / d)

theorem dividesBy {σ : Type} {f : Formula} {input : NewtonInput} {observer : Observer σ} {o : σ}
    {r : Iteration} (hr : r ∈ (runWith f input observer o).1.steps) :
    ∃ d, DividesBy f input r d ∧ IsSoundDivisor d := by
  obtain ⟨e, -, hresult⟩ | ⟨value, run, history, -, hmakes, hsteps, -, hresult⟩ :=
    runWith_cases f input observer o <;> rw [hresult] at hr
  · cases hr
  · rw [hsteps.steps_toResult] at hr
    obtain ⟨states, -, hfollows⟩ := hmakes.follows
    obtain ⟨k, hk⟩ := List.mem_iff_getElem?.1 hr
    obtain ⟨pass, hpass, rfl⟩ := hfollows.passes k r hk
    obtain ⟨d, next, hd, hlarge, rfl, -, rfl⟩ := Scheme.advance_eq_ok.1 hpass
    have hslope : f.slope input.derivative (states k).x = .ok d := mapError_eq_ok.1 hd
    exact ⟨d, ⟨rfl, hslope, rfl⟩, (isSoundDivisor_iff hlarge).2 (Formula.slope_isFinite hslope)⟩

end Newton

/-! ## Secant -/

namespace Secant

/-- The record whose point an update steps away from: that of the first guess for the first update,
and the one before for each other update. -/
def earlier? (records : List Iteration) (k : Nat) : Option Iteration :=
  if k = 2 then records[0]? else records[k - 1]?

/-- The step of `r` divides by the difference of its function value and that of `p`, and is sound
unless the difference overflows. Then it goes nowhere, and under the step size rule the run
converges with it. -/
structure DividesBy (input : SecantInput) (result : RootResult) (p r : Iteration) (next : Float) :
    Prop where
  fx_isFinite : p.fx.isFinite ∧ r.fx.isFinite
  next_eq : next = r.x - r.fx * (r.x - p.x) / (r.fx - p.fx)
  sound_iff : IsSoundDivisor (r.fx - p.fx) ↔ (r.fx - p.fx).isFinite
  next_beq : ¬ IsSoundDivisor (r.fx - p.fx) → (r.fx - p.fx).isInf ∧ next == r.x
  converges : ¬ IsSoundDivisor (r.fx - p.fx) → input.config.stoppingRule = .stepSize →
    r.error = some 0 ∧ result.steps.getLast? = some r ∧ result.converged ∧ result.root = some next

variable {f : Formula} {input : SecantInput} {records : List Iteration}

/-- The point of an update is on the graph, and so is the one it steps away from. -/
theorem Orbit.update (h : Orbit f input records) {k : Nat} {r : Iteration} {next : Float}
    (hr : records[k]? = some r) (hnext : r.nextX = some next) :
    ∃ p, earlier? records k = some p ∧ p.fx.isFinite ∧
      Updates f input.config.stoppingRule p r next := by
  have hupdates {p : Iteration} {next' : Float}
      (hu : Updates f input.config.stoppingRule p r next') :
      Updates f input.config.stoppingRule p r next :=
    Option.some.inj (hu.nextX_eq.symm.trans hnext) ▸ hu
  match k with
  | 0 => cases (h.first r hr).1.nextX_eq.symm.trans hnext
  | 1 => cases (h.second r hr).1.nextX_eq.symm.trans hnext
  | 2 =>
    obtain ⟨-, p, next', hp, hu⟩ := h.third r hr
    exact ⟨p, hp, Formula.eval_isFinite (h.first p hp).1.fx_eq, hupdates hu⟩
  | k + 3 =>
    obtain ⟨p, next', hp, -, hu⟩ := h.later k r hr
    refine ⟨p, hp, ?_, hupdates hu⟩
    cases k with
    | zero =>
      obtain ⟨-, _, _, -, hbefore⟩ := h.third p hp
      exact Formula.eval_isFinite hbefore.fx_eq
    | succ k =>
      obtain ⟨_, _, -, -, hbefore⟩ := h.later k p hp
      exact Formula.eval_isFinite hbefore.fx_eq

/-- An update by a difference that overflows has length zero. -/
theorem Updates.dividesBy {result : RootResult} {p r : Iteration} {next : Float}
    (h : Updates f input.config.stoppingRule p r next) (hp : p.fx.isFinite)
    (hr : r ∈ result.steps) (htolerance : isPositive input.config.tolerance)
    (hstops : StopsAtTolerance f input.config result) : DividesBy input result p r next := by
  have hfinite := h.next_isFinite
  rw [h.next_eq] at hfinite
  constructor
  · exact ⟨hp, Formula.eval_isFinite h.fx_eq⟩
  · exact h.next_eq
  · exact isSoundDivisor_iff h.not_small
  · intro hunsound
    rw [isSoundDivisor_iff h.not_small] at hunsound
    obtain ⟨hinf, hbeq, -⟩ := sub_div_of_not_finite hunsound hfinite
    exact ⟨hinf, h.next_eq ▸ hbeq⟩
  · intro hunsound hrule
    rw [isSoundDivisor_iff h.not_small] at hunsound
    obtain ⟨-, -, hzero⟩ := sub_div_of_not_finite hunsound hfinite
    have herror : r.error = some 0 := by
      rw [h.error_eq, hrule, ← hzero, ← h.next_eq]
      rfl
    exact ⟨herror, hstops.of_below hr h.nextX_eq (below_of_error_zero htolerance herror)⟩

theorem dividesBy {σ : Type} {observer : Observer σ} {o : σ} (hvalid : input.validate = .ok ())
    {k : Nat} {r : Iteration} {next : Float}
    (hr : (runWith f input observer o).1.iterations[k]? = some r) (hnext : r.nextX = some next) :
    ∃ p, earlier? (runWith f input observer o).1.iterations k = some p ∧
      DividesBy input (runWith f input observer o).1 p r next := by
  have hstops := (stops f input hvalid observer o).toStopsAtTolerance
  obtain ⟨-, -, -, htolerance, -⟩ := SecantInput.validate_eq_ok.1 hvalid
  have hstep : r ∈ (runWith f input observer o).1.steps :=
    List.mem_filter.2 ⟨List.mem_of_getElem? hr, by rw [hnext]; rfl⟩
  have horbit : Orbit f input (runWith f input observer o).1.iterations := by
    obtain ⟨e, -, hresult⟩ | ⟨f0, e, h0, -, hresult⟩ |
      ⟨f0, f1, run, history, h0, h1, hmakes, -, rfl, hresult⟩ :=
      runWith_cases f input observer o <;> rw [hresult]
    · rw [hresult] at hr
      cases hr
    · exact orbit_of_firstSeed h0
    · obtain ⟨states, hstates, hfollows⟩ := hmakes.follows
      exact orbit_of_follows hfollows hstates ⟨rfl, h0⟩ ⟨rfl, h1⟩
  obtain ⟨p, hp, hfinite, hupdates⟩ := horbit.update hr hnext
  exact ⟨p, hp, hupdates.dividesBy hfinite hstep htolerance hstops⟩

end Secant

/-- **Newton-Raphson divides by sound divisors only, and the secant method does unless a difference
overflows.** -/
theorem divisors_are_sound {σ : Type} (f : Formula) (observer : Observer σ) (o : σ) :
    (∀ input : NewtonInput, ∀ r ∈ (Newton.runWith f input observer o).1.steps, ∃ d,
      Newton.DividesBy f input r d ∧ IsSoundDivisor d) ∧
    ∀ input : SecantInput, input.validate = .ok () → ∀ k (r : Iteration) next,
      (Secant.runWith f input observer o).1.iterations[k]? = some r → r.nextX = some next → ∃ p,
        Secant.earlier? (Secant.runWith f input observer o).1.iterations k = some p ∧
          Secant.DividesBy input (Secant.runWith f input observer o).1 p r next :=
  ⟨fun _ _ hr => Newton.dividesBy hr, fun _ h _ _ _ hr hnext => Secant.dividesBy h hr hnext⟩

/-- The first steps for `x` divide by its derivative, and by the difference of `1` and `2`. -/
theorem identity_divisors :
    let f : Formula := ⟨"x", .x⟩
    let newton : NewtonInput := { expression := "x", x0 := 1, derivative := .shortcut }
    let secant : SecantInput := { expression := "x", x0 := 2, x1 := 1 }
    let q : Iteration :=
      { index := 0, x := 1, fx := 1, derivative := some 1, nextX := some 0, error := some 1 }
    let r : Iteration := { index := 2, x := 1, fx := 1, nextX := some 0, error := some 1 }
    (q ∈ (Newton.runWith f newton .silent ()).1.steps ∧
      ∃ d, Newton.DividesBy f newton q d ∧ IsSoundDivisor d) ∧
    secant.validate = .ok () ∧
      (Secant.runWith f secant .silent ()).1.iterations[2]? = some r ∧ r.nextX = some 0 ∧
      ∃ p, Secant.earlier? (Secant.runWith f secant .silent ()).1.iterations 2 = some p ∧
        Secant.DividesBy secant (Secant.runWith f secant .silent ()).1 p r 0 := by
  intro f newton secant q r
  have hq : q ∈ (Newton.runWith f newton .silent ()).1.steps := by decide +kernel
  have hr : (Secant.runWith f secant .silent ()).1.iterations[2]? = some r := by decide +kernel
  have hvalid : secant.validate = .ok () := SecantInput.validate_eq_ok.2 (by decide +kernel)
  refine ⟨⟨hq, ?_⟩, hvalid, hr, rfl, ?_⟩
  · exact (divisors_are_sound f .silent ()).1 newton q hq
  · exact (divisors_are_sound f .silent ()).2 secant hvalid 2 r 0 hr rfl

/-- The function values at the two guesses are `-1e308` and `1e308`. Their difference overflows, and
the run converges at the second guess. -/
theorem overflow_converges :
    let f : Formula := ⟨"1e308*x/abs(x)",
      .binary .div (.binary .mul (.number 1e308) .x) (.call .abs .x)⟩
    let input : SecantInput := { expression := "1e308*x/abs(x)", x0 := -0.25, x1 := 0.25 }
    let result := (Secant.runWith f input .silent ()).1
    input.validate = .ok () ∧ result.converged ∧ result.root = some 0.25 ∧
      result.functionValue = some 1e308 ∧
      ∃ p r : Iteration, result.iterations[0]? = some p ∧ result.iterations[2]? = some r ∧
        r.nextX = some 0.25 ∧ r.error = some 0 ∧ p.fx.isFinite ∧ r.fx.isFinite ∧
        ¬ IsSoundDivisor (r.fx - p.fx) := by
  refine ⟨rfl, by decide +kernel, by decide +kernel, by decide +kernel, ?_⟩
  refine ⟨{ index := 0, x := -0.25, fx := -1e308 },
    { index := 2, x := 0.25, fx := 1e308, nextX := some 0.25, error := some 0 }, ?_⟩
  decide +kernel

end RealRoots
