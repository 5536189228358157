import RealRoots.Comparison
import RealRoots.Proofs.Solver.Coherence

/-!
# The record of the root

**Theorem (`final_point_only_appends`).** Asking for the record of the root changes nothing in a
result but the end of its history, which is followed by that record or by nothing. No comparison
with any other result is decided by it.

The record takes no step and has no error. So the readers of a history pass it over: the order of
convergence is estimated from the steps, and the last error is that of the last record with an
error (`convergenceRate_append`, `lastError_append`). A comparison reads these two and nothing else
of a history (`JudgedAlike.sameVerdicts`).
-/

namespace RealRoots

/-! ## Readers of the history -/

/-- The record takes no step and has no error. -/
structure Iteration.Rests (it : Iteration) : Prop where
  nextX_eq : it.nextX = none
  error_eq : it.error = none

section

variable {final : Option Iteration} (h : ∀ it, final = some it → it.Rests)
  (history : List Iteration)

include h

theorem convergenceRate_append :
    convergenceRate (history ++ final.toList) = convergenceRate history := by
  have hsteps : final.toList.filterMap Iteration.stepSize = [] := by
    cases final with
    | none => rfl
    | some it => simp [Iteration.stepSize, (h it rfl).nextX_eq]
  rw [convergenceRate, convergenceRate, List.filterMap_append, hsteps, List.append_nil]

theorem filter_steps_append : (history ++ final.toList).filter (fun it => it.nextX.isSome) =
    history.filter fun it => it.nextX.isSome := by
  cases final with
  | none => rw [Option.toList_none, List.append_nil]
  | some it => simp [(h it rfl).nextX_eq]

theorem lastError_append : (history ++ final.toList).reverse.findSome? Iteration.error =
    history.reverse.findSome? Iteration.error := by
  cases final with
  | none => rw [Option.toList_none, List.append_nil]
  | some it => simp [(h it rfl).error_eq]

end

/-! ## Comparisons -/

/-- A comparison reads the same of both results. -/
structure RootResult.JudgedAlike (a b : RootResult) : Prop where
  converged_eq : a.converged = b.converged
  totalIterations_eq : a.totalIterations = b.totalIterations
  accuracy_eq : a.accuracy = b.accuracy
  finalError_eq : a.finalError = b.finalError
  convergenceRate_eq : a.convergenceRate = b.convergenceRate

theorem RootResult.JudgedAlike.refl (a : RootResult) : a.JudgedAlike a :=
  ⟨rfl, rfl, rfl, rfl, rfl⟩

/-- The verdicts of the comparisons are the same. -/
structure Comparison.SameVerdicts (c d : Comparison) : Prop where
  winner_eq : c.winner = d.winner
  winnerByIterations_eq : c.winnerByIterations = d.winnerByIterations
  winnerByAccuracy_eq : c.winnerByAccuracy = d.winnerByAccuracy
  winnerByRate_eq : c.winnerByRate = d.winnerByRate
  iterationDelta_eq : c.iterationDelta = d.iterationDelta

theorem RootResult.JudgedAlike.sameVerdicts {a a' b b' : NamedResult}
    (ha : a.result.JudgedAlike a'.result) (hb : b.result.JudgedAlike b'.result) :
    (Comparison.judge a b).SameVerdicts (Comparison.judge a' b') := by
  have hiterations : byIterations a.result b.result = byIterations a'.result b'.result := by
    simp only [byIterations, amongConverged, ha.converged_eq, hb.converged_eq,
      ha.totalIterations_eq, hb.totalIterations_eq]
  have haccuracy : byAccuracy a.result b.result = byAccuracy a'.result b'.result := by
    simp only [byAccuracy, amongConverged, ha.converged_eq, hb.converged_eq, ha.accuracy_eq,
      hb.accuracy_eq, ha.finalError_eq, hb.finalError_eq]
  have hrate : byRate a.result b.result = byRate a'.result b'.result := by
    simp only [byRate, ha.converged_eq, hb.converged_eq, ha.convergenceRate_eq,
      hb.convergenceRate_eq]
  constructor <;>
    simp only [Comparison.judge, hiterations, haccuracy, hrate, ha.totalIterations_eq,
      hb.totalIterations_eq]

/-! ## Runs -/

/-- The input with the record of the root asked for, or not. -/
def NewtonInput.asking (input : NewtonInput) (asked : Bool) : NewtonInput :=
  { input with recordFinalPoint := asked }

namespace Newton

/-- The record of the root of a converged result, with its function value and derivative. It is made
within the iteration limit only. -/
def IsRootRecord (f : Formula) (input : NewtonInput) (result : RootResult) (it : Iteration) :
    Prop :=
  result.converged ∧ result.totalIterations < input.config.maxIterations ∧
    ∃ root fx d, result.root = some root ∧ f.eval root = .ok fx ∧
      f.slope input.derivative root = .ok d ∧
      it = { index := result.totalIterations, x := root, fx, derivative := some d
             nextX := none, error := none }

/-- The result `asked` is the result `plain` with the record of the root after its history, where
there is one. What is read from a history is the same of both. -/
structure AppendsRoot (f : Formula) (input : NewtonInput) (plain asked : RootResult) : Prop where
  eq : asked = { plain with iterations := asked.iterations }
  steps_eq : asked.steps = plain.steps
  finalError_eq : asked.finalError = plain.finalError
  history : ∃ final : Option Iteration, asked.iterations = plain.iterations ++ final.toList ∧
    ∀ it, final = some it ↔ IsRootRecord f input plain it

theorem IsRootRecord.rests {f : Formula} {input : NewtonInput} {result : RootResult}
    {it : Iteration} (h : IsRootRecord f input result it) : it.Rests := by
  obtain ⟨-, -, root, fx, d, -, -, -, rfl⟩ := h
  exact ⟨rfl, rfl⟩

section

variable {f : Formula} {input : NewtonInput} {plain asked : RootResult}

theorem AppendsRoot.judgedAlike (h : AppendsRoot f input plain asked) (s t : Float) :
    (asked.timed s).JudgedAlike (plain.timed t) := by
  have herror := h.finalError_eq
  rw [h.eq] at herror ⊢
  exact ⟨rfl, rfl, rfl, herror, rfl⟩

/-- A run is reported with a longer history as it is without, if the record after it rests. -/
theorem appendsRoot_toResult {run : Run} {final : Option Iteration}
    (h : ∀ it, final = some it ↔
      IsRootRecord f input (run.toResult .newtonRaphson f input.config) it) :
    AppendsRoot f input (run.toResult .newtonRaphson f input.config)
      (Run.toResult { run with history := run.history ++ final.toList } .newtonRaphson f
        input.config) := by
  have hrests it (hit : final = some it) : it.Rests := ((h it).1 hit).rests
  constructor
  · unfold Run.toResult
    simp only [convergenceRate_append hrests]
  · simp only [RootResult.steps, Run.toResult_iterations, filter_steps_append hrests]
  · simp only [RootResult.finalError, Run.toResult_iterations, lastError_append hrests]
  · exact ⟨final, by simp only [Run.toResult_iterations], h⟩

theorem finish_of_room {run : Run} (h : run.history.length < input.config.maxIterations) :
    finish f (input.asking true) run =
      { run with history := run.history ++ (finalPoint? f input.derivative run).toList } :=
  if_pos (Bool.and_eq_true_iff.2 ⟨rfl, decide_eq_true h⟩)

theorem finish_of_no_room {run : Run} (h : ¬ run.history.length < input.config.maxIterations) :
    finish f (input.asking true) run = run :=
  if_neg fun hroom => h (of_decide_eq_true (Bool.and_eq_true_iff.1 hroom).2)

/-- The record of the root is made for a run of passes that has converged and has room for it. -/
theorem finalPoint?_iff_isRootRecord {value : Float} {run : Run}
    (hmakes : (scheme f input.derivative).Makes f input.config input.config.maxIterations 0
      ⟨input.x0, value⟩ run) {it : Iteration} :
    run.history.length < input.config.maxIterations ∧
        finalPoint? f input.derivative run = some it ↔
      IsRootRecord f input (run.toResult .newtonRaphson f input.config) it := by
  have htotal : run.total = run.history.length := by
    rw [hmakes.total_eq (Nat.zero_add _), Nat.zero_add]
  rw [finalPoint?_eq_some, IsRootRecord, Run.toResult_totalIterations, htotal]
  constructor
  · rintro ⟨hroom, root, fx, d, hending, hd, rfl⟩
    obtain ⟨-, -, -, hvalue, -⟩ := hmakes.last_of_converged hending
    obtain ⟨hconverged, hroot, -⟩ := Run.toResult_of_converged .newtonRaphson f input.config hending
    exact ⟨hconverged, hroom, root, fx, d, hroot, toOption_eq_some.1 hvalue.symm, hd, rfl⟩
  · rintro ⟨hconverged, hroom, root, fx, d, hroot, hfx, hd, rfl⟩
    obtain ⟨root', value', hending⟩ := Run.toResult_converged_iff.1 hconverged
    obtain ⟨-, hroot', -⟩ := Run.toResult_of_converged .newtonRaphson f input.config hending
    obtain rfl : root' = root := Option.some.inj (hroot'.symm.trans hroot)
    obtain ⟨-, -, -, rfl, -⟩ := hmakes.last_of_converged hending
    rw [hfx] at hending
    exact ⟨hroom, root', fx, d, hending, hd, rfl⟩

end

/-- Whether the record of the root is asked for has no influence on the passes, and so none on the
observer. -/
theorem appendsRoot_runWith {σ : Type} (f : Formula) (input : NewtonInput) (observer : Observer σ)
    (o : σ) :
    (runWith f (input.asking true) observer o).2 = (runWith f (input.asking false) observer o).2 ∧
      AppendsRoot f input (runWith f (input.asking false) observer o).1
        (runWith f (input.asking true) observer o).1 := by
  cases hvalue : f.eval input.x0 with
  | error e =>
    rw [runWith_of_error (input.asking true) hvalue, runWith_of_error (input.asking false) hvalue]
    refine ⟨rfl, ?_⟩
    have hnone : ∀ it, none = some it ↔ IsRootRecord f input
        ((Run.failing (.ofEvalError e) 0).toResult .newtonRaphson f input.config) it :=
      fun it => iff_of_false nofun fun h => absurd h.1 nofun
    exact appendsRoot_toResult hnone
  | ok value =>
    obtain ⟨⟨run, last⟩, hrun⟩ : ∃ r, (scheme f input.derivative).iterate f input.config observer
      input.config.maxIterations 0 ⟨input.x0, value⟩ o = r := ⟨_, rfl⟩
    rw [runWith_of_ok (input.asking true) hvalue hrun,
      runWith_of_not_asked (input.asking false) rfl hvalue hrun]
    refine ⟨rfl, ?_⟩
    have hrecord (it : Iteration) :=
      @finalPoint?_iff_isRootRecord f input value run (Scheme.makes_of_iterate hrun) it
    by_cases hroom : run.history.length < input.config.maxIterations
    · simp only [hroom, true_and] at hrecord
      rw [finish_of_room hroom]
      exact appendsRoot_toResult hrecord
    · simp only [hroom, false_and] at hrecord
      have hnone : ∀ it, none = some it ↔ IsRootRecord f input
          (run.toResult .newtonRaphson f input.config) it :=
        fun it => (iff_of_false nofun id).trans (hrecord it)
      have happends := appendsRoot_toResult hnone
      rw [Option.toList_none, List.append_nil] at happends
      rwa [finish_of_no_room hroom]

end Newton

/-- **The record of the root changes nothing but the end of the history.** An input is refused with
it as without. Otherwise the observer sees the same run, and the result is the same but for that
record, which is there exactly where the run has converged within its limit to a root with a
function value and a derivative. No verdict on the result depends on it. -/
theorem final_point_only_appends {σ : Type} (input : NewtonInput) (observer : Observer σ) (o : σ) :
    (∀ e, Newton.solveWith (input.asking true) observer o = .error e ↔
      Newton.solveWith (input.asking false) observer o = .error e) ∧
    ∀ f : Formula,
      let asked := Newton.runWith f (input.asking true) observer o
      let plain := Newton.runWith f (input.asking false) observer o
      asked.2 = plain.2 ∧ Newton.AppendsRoot f input plain.1 asked.1 ∧
        ∀ name other s t,
          (Comparison.judge ⟨name, asked.1.timed s⟩ other).SameVerdicts
            (Comparison.judge ⟨name, plain.1.timed t⟩ other) ∧
          (Comparison.judge other ⟨name, asked.1.timed s⟩).SameVerdicts
            (Comparison.judge other ⟨name, plain.1.timed t⟩) := by
  constructor
  · intro e
    have hformula : (input.asking true).formula = (input.asking false).formula := rfl
    unfold Newton.solveWith Newton.solveObserved
    rw [hformula]
    cases (input.asking false).formula with
    | error e' => exact Iff.rfl
    | ok f => exact iff_of_false nofun nofun
  · intro f asked plain
    obtain ⟨hobserver, happends⟩ := Newton.appendsRoot_runWith f input observer o
    refine ⟨hobserver, happends, fun name other s t => ?_⟩
    have halike := happends.judgedAlike s t
    exact ⟨RootResult.JudgedAlike.sameVerdicts halike (.refl _),
      RootResult.JudgedAlike.sameVerdicts (.refl _) halike⟩

/-- The run for `x` from `1` takes two steps, and the record of the root comes after theirs. Either
run is compared alike with a secant run. -/
theorem identity_root_appended :
    let f : Formula := ⟨"x", .x⟩
    let input : NewtonInput := { expression := "x", x0 := 1 }
    let asked := (Newton.runWith f (input.asking true) .silent ()).1
    let plain := (Newton.runWith f (input.asking false) .silent ()).1
    let secant : NamedResult := .ofResult (Secant.run f { expression := "x", x0 := 2, x1 := 1 })
    let root : Iteration := { index := 2, x := 0, fx := 0, derivative := some 1 }
    plain.iterations.length = 2 ∧ asked.iterations = plain.iterations ++ [root] ∧
      (Comparison.judge ⟨"a", asked.timed 1⟩ secant).SameVerdicts
        (Comparison.judge ⟨"a", plain.timed 2⟩ secant) := by
  intro f input asked plain secant root
  obtain ⟨-, hruns⟩ := final_point_only_appends input .silent ()
  obtain ⟨-, happends, hverdicts⟩ := hruns f
  have hroot : Newton.IsRootRecord f input plain root :=
    ⟨by decide +kernel, by decide +kernel, 0, 0, 1, by decide +kernel, rfl,
      toOption_eq_some.1 (by decide +kernel), by decide +kernel⟩
  obtain ⟨final, hhistory, hfinal⟩ := happends.history
  rw [(hfinal root).2 hroot] at hhistory
  exact ⟨by decide +kernel, hhistory, (hverdicts "a" secant 1 2).1⟩

end RealRoots
