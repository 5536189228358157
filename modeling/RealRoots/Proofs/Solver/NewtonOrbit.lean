import RealRoots.Proofs.Solver.Parameters
import RealRoots.Proofs.Solver.Passes

/-!
# The history of a Newton run

**Theorem (`Newton.newton_orbit`).** The history of a run is the orbit of the update rule from the
guess, whatever the formula and the observer.

The states of a run are points of the graph of the formula: the first one by the evaluation before
the first pass, and each other one because a pass leads to it only with its function value. The
record of the root is the one record that takes no step.
-/

namespace RealRoots.Newton

/-- The record takes a step of the update rule. -/
structure TakesStep (f : Formula) (input : NewtonInput) (r : Iteration) (d next : Float) :
    Prop where
  fx_eq : f.eval r.x = .ok r.fx
  slope_eq : f.slope input.derivative r.x = .ok d
  derivative_eq : r.derivative = some d
  nextX_eq : r.nextX = some next
  not_small : ¬ d.abs < singularityThreshold
  next_eq : next = r.x - r.fx / d
  x_isFinite : r.x.isFinite
  fx_isFinite : r.fx.isFinite
  d_isFinite : d.isFinite
  next_isFinite : next.isFinite
  error_eq : r.error = input.config.stoppingRule.error r.x next (f.eval next).toOption

/-- The record is that of the root of a converged run, and takes no step. -/
structure IsFinalPoint (f : Formula) (input : NewtonInput) (result : RootResult)
    (r : Iteration) : Prop where
  asked : input.recordFinalPoint
  converged : result.converged
  root_eq : result.root = some r.x
  functionValue_eq : result.functionValue = some r.fx
  fx_eq : f.eval r.x = .ok r.fx
  slope_eq : ∃ d, r.derivative = some d ∧ f.slope input.derivative r.x = .ok d
  nextX_eq : r.nextX = none
  error_eq : r.error = none

/-- **The orbit of the update rule.** The records are numbered, the first one is at the guess and
each other one where the one before it leads. Each takes a step, but the last one may be that of
the root. -/
structure Orbit (f : Formula) (input : NewtonInput) (result : RootResult) : Prop where
  index_eq : ∀ k (r : Iteration), result.iterations[k]? = some r → r.index = k
  x_zero : ∀ r : Iteration, result.iterations[0]? = some r → r.x = input.x0
  x_succ : ∀ k (r r' : Iteration), result.iterations[k]? = some r →
    result.iterations[k + 1]? = some r' → r.nextX = some r'.x
  record : ∀ k (r : Iteration), result.iterations[k]? = some r →
    (∃ d next, TakesStep f input r d next) ∨
      k + 1 = result.iterations.length ∧ IsFinalPoint f input result r

/-! ## The records of passes -/

/-- A finite point of the graph. -/
def OnGraph (f : Formula) (p : Point) : Prop :=
  p.x.isFinite ∧ f.eval p.x = .ok p.fx

/-- The history follows the method from the guess, and a converged run ends where it leads. -/
structure Passed (f : Formula) (input : NewtonInput) (run : Run) (states : Nat → Point) :
    Prop where
  follows : (scheme f input.derivative).Follows f input.config.stoppingRule 0 states run.history
  onGraph : OnGraph f (states 0)
  x_zero : (states 0).x = input.x0
  last : ∀ root value, run.ending = .converged root value → ∃ r, run.history.getLast? = some r ∧
    r.nextX = some root ∧ value = (f.eval root).toOption ∧ run.total = 0 + run.history.length

variable {f : Formula} {input : NewtonInput} {run : Run} {states : Nat → Point}

theorem takesStep (h : Passed f input run states) {k : Nat} {r : Iteration}
    (hr : run.history[k]? = some r) :
    r.index = k ∧ r.x = (states k).x ∧ ∃ d next, TakesStep f input r d next := by
  obtain ⟨hk, -⟩ := List.getElem?_eq_some_iff.1 hr
  obtain ⟨hx, hfx⟩ : OnGraph f (states k) :=
    h.follows.point_of (fun _ _ => rfl) h.onGraph (fun _ hx hfx => ⟨hx, hfx⟩) hk
  obtain ⟨pass, hpass, rfl⟩ := h.follows.passes k r hr
  obtain ⟨d, next, hd, hsmall, hnext, hfinite, rfl⟩ := Scheme.advance_eq_ok.1 hpass
  have hslope : f.slope input.derivative (states k).x = .ok d := mapError_eq_ok.1 hd
  refine ⟨Nat.zero_add k, rfl, d, next, ?_⟩
  exact ⟨hfx, hslope, rfl, rfl, hsmall, hnext, hx, Formula.eval_isFinite hfx,
    Formula.slope_isFinite hslope, hfinite, rfl⟩

/-! ## The record of the root -/

theorem finalPoint?_eq_some {options : DerivativeOptions} {r : Iteration} :
    finalPoint? f options run = some r ↔
      ∃ root value d, run.ending = .converged root (some value) ∧ f.slope options root = .ok d ∧
        r = { index := run.total, x := root, fx := value, derivative := some d } := by
  unfold finalPoint?
  constructor
  · intro h
    split at h
    · rename_i root value hending
      obtain ⟨d, hd, rfl⟩ := Option.map_eq_some_iff.1 h
      exact ⟨root, value, d, hending, toOption_eq_some.1 hd, rfl⟩
    · cases h
  · rintro ⟨root, value, d, hending, hd, rfl⟩
    simp [hending, hd, Except.toOption]

/-- The end of a run is not changed, and its history gets at most one more record. -/
theorem finish_eq (f : Formula) (input : NewtonInput) (run : Run) : ∃ final : Option Iteration,
    finish f input run = { run with history := run.history ++ final.toList } ∧
      ∀ r, final = some r →
        input.recordFinalPoint ∧ finalPoint? f input.derivative run = some r := by
  unfold finish
  split
  · rename_i h
    rw [Bool.and_eq_true] at h
    exact ⟨finalPoint? f input.derivative run, rfl, fun r hr => ⟨h.1, hr⟩⟩
  · exact ⟨none, by simp, by simp⟩

theorem finish_ending : (finish f input run).ending = run.ending := by
  unfold finish
  split <;> rfl

/-- There is no record of the root after a run that failed. -/
theorem finish_of_failed {e : SolverError} (h : run.ending = .failed e) :
    finish f input run = run := by
  obtain ⟨final, hfinish, hfinal⟩ := finish_eq f input run
  cases final with
  | none => rw [hfinish, Option.toList_none, List.append_nil]
  | some r =>
    obtain ⟨root, value, d, hending, -⟩ := finalPoint?_eq_some.1 (hfinal r rfl).2
    rw [h] at hending
    cases hending

/-! ## The whole history -/

theorem isFinalPoint (h : Passed f input run states)
    (history : List Iteration) {r : Iteration} (hasked : input.recordFinalPoint)
    (hr : finalPoint? f input.derivative run = some r) :
    r.index = run.history.length ∧
      (∃ last, run.history.getLast? = some last ∧ last.nextX = some r.x) ∧
      IsFinalPoint f input (Run.toResult { run with history } .newtonRaphson f input.config) r := by
  obtain ⟨root, value, d, hending, hd, rfl⟩ := finalPoint?_eq_some.1 hr
  obtain ⟨last, hlast, hnext, hvalue, htotal⟩ := h.last root _ hending
  have heval : f.eval root = .ok value := toOption_eq_some.1 hvalue.symm
  obtain ⟨hconverged, hroot, hfunction⟩ :=
    @Run.toResult_of_converged { run with history } .newtonRaphson f input.config _ _ hending
  refine ⟨by simp [htotal], ⟨last, hlast, hnext⟩, ?_⟩
  exact ⟨hasked, hconverged, hroot, hfunction, heval, ⟨d, rfl, hd⟩, rfl, rfl⟩

theorem finish_orbit (h : Passed f input run states) :
    Orbit f input ((finish f input run).toResult .newtonRaphson f input.config) := by
  obtain ⟨final, hfinish, hfinal⟩ := finish_eq f input run
  have hpass {k : Nat} {r : Iteration} (hr : run.history[k]? = some r) :=
    takesStep h hr
  have hend {r : Iteration} (hr : final = some r) :=
    isFinalPoint h (run.history ++ final.toList) (hfinal r hr).1 (hfinal r hr).2
  rw [hfinish]
  constructor <;> simp only [Run.toResult_iterations]
  · intro k r hr
    obtain hr | ⟨rfl, hfin⟩ := getElem?_append_toList hr
    · exact (hpass hr).1
    · exact (hend hfin).1
  · intro r hr
    obtain hr | ⟨hzero, hfin⟩ := getElem?_append_toList hr
    · rw [(hpass hr).2.1, h.x_zero]
    · obtain ⟨last, hlast, -⟩ := (hend hfin).2.1
      rw [List.length_eq_zero_iff.1 hzero.symm] at hlast
      cases hlast
  · intro k r r' hr hr'
    obtain hr' | ⟨hk, hfin⟩ := getElem?_append_toList hr'
    · rw [List.getElem?_append_left] at hr
      · exact h.follows.nextX_eq (fun _ _ => rfl) hr hr'
      · exact Nat.lt_of_succ_lt (List.getElem?_eq_some_iff.1 hr').1
    · obtain ⟨last, hlast, hnext⟩ := (hend hfin).2.1
      rw [List.getElem?_append_left (by omega)] at hr
      rw [List.getLast?_eq_getElem?, ← hk, Nat.add_sub_cancel, hr] at hlast
      cases hlast
      exact hnext
  · intro k r hr
    obtain hr | ⟨rfl, hfin⟩ := getElem?_append_toList hr
    · exact .inl (hpass hr).2.2
    · exact .inr ⟨by simp [hfin], (hend hfin).2.2⟩

theorem x0_isFinite {input : NewtonInput} (h : input.validate = .ok ()) : input.x0.isFinite := by
  obtain ⟨_, hguess, -⟩ := bind_eq_ok.1 h
  exact validateGuess_eq_ok.1 hguess

/-- A run that fails at once has no history. -/
theorem finish_failing (error : SolverError) (total : Nat) :
    finish f input (.failing error total) = .failing error total :=
  finish_of_failed rfl

/-- **The history is the orbit of the update rule.** -/
theorem newton_orbit {σ : Type} (f : Formula) (input : NewtonInput)
    (h : input.validate = .ok ()) (observer : Observer σ) (o : σ) :
    Orbit f input (runWith f input observer o).1 := by
  unfold runWith
  cases hvalue : f.eval input.x0 with
  | error e =>
    simp only [finish_failing]
    constructor <;> simp [Run.failing]
  | ok value =>
    obtain ⟨states, hzero, hfollows⟩ :=
      (scheme f input.derivative).iterate_follows f input.config observer
        input.config.maxIterations 0 ⟨input.x0, value⟩ o
    refine finish_orbit ⟨hfollows, ?_, ?_, ?_⟩
    · rw [hzero]
      exact ⟨x0_isFinite h, hvalue⟩
    · rw [hzero]
    · intro root v hending
      exact Scheme.last_of_converged rfl hending

/-- The run for `x` from `1` steps to the root, takes a second step there and records the root. -/
theorem identity_orbit :
    let f : Formula := ⟨"x", .x⟩
    let input : NewtonInput := { expression := "x", x0 := 1, recordFinalPoint := true }
    input.validate = .ok () ∧ (runWith f input .silent ()).1.iterations.length = 3 ∧
      Orbit f input (runWith f input .silent ()).1 :=
  ⟨rfl, by decide +kernel, newton_orbit _ _ rfl .silent ()⟩

end RealRoots.Newton
