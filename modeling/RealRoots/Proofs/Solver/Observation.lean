import RealRoots.Proofs.Solver.Runs

/-!
# What an observer sees and does

**Theorem (`observation_is_transparent`).** An observer that never stops a run does not change its
result. One that stops it cuts the history there, and is not asked again.

What an observer was shown and what it answered is read off a second run, with an observer that does
as the first one and keeps a log (`Observer.logging`). The proof is a simulation of three runs, with
the observer, with its log and with no observer. A pass does not look at the state of the observer
(`Scheme.iterate_of_proceed`), so the three go on from the same state of the method or end at once.
-/

namespace RealRoots

/-- The steps an observer was shown, with what it answered. -/
abbrev Log : Type := List (Step × Signal)

/-- The observer with a log of what it was shown and answered. -/
def Observer.logging {σ : Type} (observer : Observer σ) : Observer (σ × Log) :=
  ⟨fun (o, log) step =>
    ((observer.look o step).1, (observer.look o step).2, log ++ [(step, (observer.look o step).1)])⟩

/-- The record is that of the pass that the step was shown before. -/
structure Step.Shows (step : Step) (record : Iteration) : Prop where
  index_eq : record.index = step.iteration + step.method.extraRecords
  x_eq : record.x = step.x
  fx_eq : record.fx = step.fx

namespace Scheme

variable {S σ : Type} {scheme : Scheme S} {f : Formula} {config : SolverConfig}

theorem step_shows {rule : StoppingRule} {iteration : Nat} {s : S} {pass : Advance}
    (h : scheme.advance f rule iteration s = .ok pass) :
    (scheme.step iteration s).Shows pass.record := by
  obtain ⟨divisor, next, -, -, -, -, rfl⟩ := advance_eq_ok.1 h
  exact ⟨rfl, rfl, rfl⟩

/-- **A pass is the same for every observer that lets it happen.** It fails, ends the run, or leads
to the same state. -/
theorem iterate_of_proceed (scheme : Scheme S) (f : Formula) (config : SolverConfig)
    (budget iteration : Nat) (s : S) :
    (∃ e, ∀ {σ : Type} {observer : Observer σ} {o o' : σ},
      observer.look o (scheme.step iteration s) = (.proceed, o') →
      scheme.iterate f config observer (budget + 1) iteration s o = (.failing e iteration, o')) ∨
    (∃ record ending total, (scheme.step iteration s).Shows record ∧
      ∀ {σ : Type} {observer : Observer σ} {o o' : σ},
        observer.look o (scheme.step iteration s) = (.proceed, o') →
        scheme.iterate f config observer (budget + 1) iteration s o =
          (⟨[record], ending, total⟩, o')) ∨
    ∃ record s', (scheme.step iteration s).Shows record ∧
      ∀ {σ : Type} {observer : Observer σ} {o o' : σ},
        observer.look o (scheme.step iteration s) = (.proceed, o') →
        scheme.iterate f config observer (budget + 1) iteration s o =
          ((scheme.iterate f config observer budget (iteration + 1) s' o').1.after [record],
            (scheme.iterate f config observer budget (iteration + 1) s' o').2) := by
  cases hpass : scheme.advance f config.stoppingRule iteration s with
  | error e =>
    refine .inl ⟨e, fun hlook => ?_⟩
    rw [iterate, hlook]
    simp only [hpass]
  | ok pass =>
    have hshows := step_shows hpass
    by_cases hsmall : pass.record.error.any config.isConverged
    · refine .inr (.inl ⟨pass.record, .converged pass.next pass.value.toOption, iteration + 1,
        hshows, fun hlook => ?_⟩)
      rw [iterate, hlook]
      simp only [hpass, if_pos hsmall]
    · cases hvalue : pass.value with
      | error e =>
        refine .inr (.inl ⟨pass.record, .failed (.ofEvalError e), iteration + 1, hshows,
          fun hlook => ?_⟩)
        rw [iterate, hlook]
        simp only [hpass, if_neg hsmall, hvalue]
      | ok value =>
        refine .inr (.inr ⟨pass.record, scheme.shift s ⟨pass.next, value⟩, hshows,
          fun hlook => ?_⟩)
        rw [iterate, hlook]
        simp only [hpass, if_neg hsmall, hvalue]

end Scheme

/-! ## The log of a run of passes -/

/-- The log of a run whose first pass would have number `first`, beside the run that no observer
stops. -/
structure Watched (method : Method) (first : Nat) (unobserved run : Run) (log : Log) : Prop where
  numbered : ∀ k step signal, log[k]? = some (step, signal) →
    step.method = method ∧ step.iteration = first + k
  shows : ∀ (k : Nat) (step : Step) (signal : Signal) (record : Iteration),
    log[k]? = some (step, signal) → run.history[k]? = some record → step.Shows record
  length_le : run.history.length ≤ log.length
  length_of_converged : (∃ root value, run.ending = .converged root value) →
    log.length = run.history.length
  proceeds : (∀ step, (step, Signal.stop) ∉ log) → run = unobserved
  stops : ∀ k step, log[k]? = some (step, .stop) → log.length = k + 1 ∧
    k ≤ unobserved.history.length ∧
    run = ⟨unobserved.history.take k, .failed (.cancelled (first + k)), first + k⟩

namespace Watched

variable {method : Method} {first : Nat} {unobserved run : Run} {log : Log} {step : Step}
  {record : Iteration}

/-- Nothing is left to ask when a run has ended. -/
theorem nil (ending : Ending) (total : Nat) :
    Watched method first ⟨[], ending, total⟩ ⟨[], ending, total⟩ [] := by
  constructor <;> simp

/-- A run that records nothing after the observer is asked. -/
theorem single {signal : Signal} {e : SolverError} (hmethod : step.method = method)
    (hfirst : step.iteration = first)
    (hproceed : signal = .proceed → Run.failing e first = unobserved)
    (hstop : signal = .stop → e = .cancelled first) :
    Watched method first unobserved (.failing e first) [(step, signal)] := by
  have hentry {k : Nat} {step' : Step} {signal' : Signal}
      (hk : [(step, signal)][k]? = some (step', signal')) :
      k = 0 ∧ step = step' ∧ signal = signal' := by
    cases k <;> simp_all
  constructor
  · intro k step' signal' hk
    obtain ⟨rfl, rfl, rfl⟩ := hentry hk
    exact ⟨hmethod, hfirst⟩
  · nofun
  · exact Nat.zero_le _
  · nofun
  · intro h
    cases signal with
    | proceed => exact hproceed rfl
    | stop => exact absurd (List.mem_singleton.2 rfl) (h step)
  · intro k step' hk
    obtain ⟨rfl, rfl, rfl⟩ := hentry hk
    rw [hstop rfl]
    exact ⟨rfl, Nat.zero_le _, rfl⟩

/-- A pass may be put before the ones that follow it. -/
theorem cons (hmethod : step.method = method) (hfirst : step.iteration = first)
    (hshows : step.Shows record) (h : Watched method (first + 1) unobserved run log) :
    Watched method first (unobserved.after [record]) (run.after [record])
      ((step, .proceed) :: log) := by
  constructor
  · intro k step' signal hk
    cases k with
    | zero =>
      cases hk
      exact ⟨hmethod, hfirst⟩
    | succ k =>
      obtain ⟨hmethod', hnumber⟩ := h.numbered k step' signal hk
      exact ⟨hmethod', by omega⟩
  · intro k step' signal record' hk hrecord
    cases k with
    | zero =>
      cases hk
      cases hrecord
      exact hshows
    | succ k => exact h.shows k step' signal record' hk hrecord
  · exact Nat.succ_le_succ h.length_le
  · exact fun hend => congrArg (· + 1) (h.length_of_converged hend)
  · intro hall
    rw [h.proceeds fun step' hmem => hall step' (List.mem_cons_of_mem _ hmem)]
  · intro k step' hk
    cases k with
    | zero => cases hk
    | succ k =>
      obtain ⟨hlength, hle, hrun⟩ := h.stops k step' hk
      refine ⟨congrArg (· + 1) hlength, Nat.succ_le_succ hle, ?_⟩
      rw [hrun, Nat.add_right_comm, Nat.add_assoc]
      rfl

end Watched

/-- **The run, its log and the run without an observer.** -/
theorem Scheme.iterate_logging {S σ : Type} (scheme : Scheme S) (f : Formula)
    (config : SolverConfig) (observer : Observer σ) (budget iteration : Nat) (s : S) (o : σ)
    (before : Log) :
    ∃ log, scheme.iterate f config observer.logging budget iteration s (o, before) =
        ((scheme.iterate f config observer budget iteration s o).1,
          (scheme.iterate f config observer budget iteration s o).2, before ++ log) ∧
      Watched scheme.method iteration (scheme.iterate f config .silent budget iteration s ()).1
        (scheme.iterate f config observer budget iteration s o).1 log := by
  induction budget generalizing iteration s o before with
  | zero => exact ⟨[], by simp [iterate], .nil _ _⟩
  | succ budget ih =>
    obtain ⟨signal, o', hlook⟩ : ∃ signal o',
      observer.look o (scheme.step iteration s) = (signal, o') := ⟨_, _, rfl⟩
    have hlogging : observer.logging.look (o, before) (scheme.step iteration s) =
        (signal, o', before ++ [(scheme.step iteration s, signal)]) := by
      simp only [Observer.logging, hlook]
    cases signal with
    | stop =>
      have hrun : scheme.iterate f config observer (budget + 1) iteration s o =
          (.failing (.cancelled iteration) iteration, o') := by
        rw [iterate, hlook]
      rw [iterate, hlogging, hrun]
      exact ⟨_, rfl, .single rfl rfl nofun fun _ => rfl⟩
    | proceed =>
      have hsilent : Observer.silent.look () (scheme.step iteration s) = (.proceed, ()) := rfl
      obtain ⟨e, hrun⟩ | ⟨record, ending, total, hshows, hrun⟩ | ⟨record, s', hshows, hrun⟩ :=
        scheme.iterate_of_proceed f config budget iteration s
      · rw [hrun hlook, hrun hlogging, hrun hsilent]
        exact ⟨_, rfl, .single rfl rfl (fun _ => rfl) nofun⟩
      · rw [hrun hlook, hrun hlogging, hrun hsilent]
        exact ⟨_, rfl, .cons rfl rfl hshows (.nil ending total)⟩
      · obtain ⟨log, hlog, hwatched⟩ := ih (iteration + 1) s' o'
          (before ++ [(scheme.step iteration s, .proceed)])
        rw [hrun hlook, hrun hlogging, hrun hsilent, hlog]
        refine ⟨(scheme.step iteration s, .proceed) :: log, ?_, .cons rfl rfl hshows hwatched⟩
        rw [List.append_assoc]
        rfl

/-! ## The log of a run -/

/-- **The log of a run, beside the run without an observer.** The steps are numbered from `first`,
and each one is that of the record it comes before. -/
structure Observed (method : Method) (first : Nat) (unobserved result : RootResult) (log : Log) :
    Prop where
  numbered : ∀ k step signal, log[k]? = some (step, signal) →
    step.method = method ∧ step.iteration = first + k
  shows : ∀ (step : Step) (signal : Signal) (record : Iteration), (step, signal) ∈ log →
    result.iterations[step.iteration + method.extraRecords]? = some record → step.Shows record
  shown : ∀ record ∈ result.steps, ∃ step signal, (step, signal) ∈ log ∧ Step.Shows step record
  proceeds : (∀ step, (step, Signal.stop) ∉ log) → result = unobserved
  stops : ∀ k step, log[k]? = some (step, .stop) → log.length = k + 1 ∧
    result.failure = some (.cancelled step.iteration) ∧
    result.totalIterations = step.iteration ∧
    result.iterations.length = step.iteration + method.extraRecords ∧
    result.iterations = unobserved.iterations.take (step.iteration + method.extraRecords)

/-- A run that takes no step and asks nothing. -/
theorem observed_nil {method : Method} {first : Nat} {result : RootResult}
    (h : result.steps = []) : Observed method first result result [] := by
  constructor <;> simp [h]

/-- The records of the guesses are reported before those of the passes, and perhaps one more after
them if the run has converged. -/
def Reports (seeds : List Iteration) (report : Run → Run) : Prop :=
  ∀ run, ∃ final : Option Iteration,
    report run = { run with history := seeds ++ run.history ++ final.toList } ∧
      (∀ r, final = some r → ∃ root value, run.ending = .converged root value)

/-- What is seen of the passes of a run is seen of its report. -/
theorem Watched.observed {method : Method} {first : Nat} {unobserved run : Run} {log : Log}
    (f : Formula) (config : SolverConfig) {seeds : List Iteration} {report : Run → Run}
    (h : Watched method first unobserved run log) (hsteps : run.IsStepsOf (report run).history)
    (hseeds : seeds.length = first + method.extraRecords) (hreport : Reports seeds report) :
    Observed method first ((report unobserved).toResult method f config)
      ((report run).toResult method f config) log := by
  obtain ⟨final, hrun, hfinal⟩ := hreport run
  have hplace (k : Nat) : first + k + method.extraRecords = seeds.length + k := by omega
  constructor
  · exact h.numbered
  · intro step signal record hmem hrecord
    obtain ⟨k, hk⟩ := List.mem_iff_getElem?.1 hmem
    obtain ⟨-, hnumber⟩ := h.numbered k step signal hk
    rw [hnumber, hplace, Run.toResult_iterations, hrun, List.append_assoc,
      List.getElem?_append_right (Nat.le_add_right _ _), Nat.add_sub_cancel_left] at hrecord
    obtain hrecord | ⟨hlast, hr⟩ := getElem?_append_toList hrecord
    · exact h.shows k step signal record hk hrecord
    · -- The record of the root comes after all that the observer was shown.
      have hlength := h.length_of_converged (hfinal record hr)
      obtain ⟨hlt, -⟩ := List.getElem?_eq_some_iff.1 hk
      omega
  · intro record hmem
    rw [RootResult.steps, Run.toResult_iterations, hsteps] at hmem
    obtain ⟨k, hk⟩ := List.mem_iff_getElem?.1 hmem
    obtain ⟨hlt, -⟩ := List.getElem?_eq_some_iff.1 hk
    have hlog : k < log.length := Nat.lt_of_lt_of_le hlt h.length_le
    have hentry : log[k]? = some log[k] := List.getElem?_eq_getElem hlog
    exact ⟨_, _, List.mem_of_getElem? hentry, h.shows k _ _ record hentry hk⟩
  · intro hall
    rw [h.proceeds hall]
  · intro k step hk
    obtain ⟨hlength, hle, rfl⟩ := h.stops k step hk
    obtain ⟨-, hnumber⟩ := h.numbered k step _ hk
    obtain rfl : final = none := by
      cases final with
      | none => rfl
      | some r => cases (hfinal r rfl).choose_spec.choose_spec
    obtain ⟨final', hunobserved, -⟩ := hreport unobserved
    simp only [Run.toResult_iterations, Run.toResult_totalIterations,
      Run.toResult_failure_eq_some, hunobserved, hrun, hnumber, hplace, Option.toList_none,
      List.append_nil, List.length_append, List.length_take_of_le hle, List.append_assoc,
      List.take_length_add_append, List.take_append_of_le_length hle, hlength, and_self]

theorem Newton.observed {σ : Type} (f : Formula) (input : NewtonInput) (observer : Observer σ)
    (o : σ) : ∃ log, runWith f input observer.logging (o, []) =
        ((runWith f input observer o).1, (runWith f input observer o).2, log) ∧
      Observed .newtonRaphson 0 (run f input) (runWith f input observer o).1 log := by
  unfold run runWith
  cases f.eval input.x0 with
  | error e =>
    simp only [finish_failing]
    exact ⟨[], rfl, observed_nil rfl⟩
  | ok value =>
    obtain ⟨log, hlog, hwatched⟩ := (scheme f input.derivative).iterate_logging f input.config
      observer input.config.maxIterations 0 ⟨input.x0, value⟩ o []
    have hmakes := (scheme f input.derivative).iterate_makes f input.config observer
      input.config.maxIterations 0 ⟨input.x0, value⟩ o
    have hreport : Reports [] (finish f input) := by
      intro run
      obtain ⟨final, hfinish, hfinal⟩ := finish_eq f input run
      refine ⟨final, hfinish, fun r hr => ?_⟩
      obtain ⟨root, value, d, hend, -, -⟩ := finalPoint?_eq_some.1 (hfinal r hr).2
      exact ⟨root, some value, hend⟩
    refine ⟨log, ?_, hwatched.observed f input.config
      (isStepsOf_finish f input hmakes.isStepsOf) rfl hreport⟩
    simp only [hlog]
    rfl

theorem Secant.observed {σ : Type} (f : Formula) (input : SecantInput) (observer : Observer σ)
    (o : σ) : ∃ log, runWith f input observer.logging (o, []) =
        ((runWith f input observer o).1, (runWith f input observer o).2, log) ∧
      Observed .secant 1 (run f input) (runWith f input observer o).1 log := by
  unfold run runWith
  cases f.eval input.x0 with
  | error e => exact ⟨[], rfl, observed_nil rfl⟩
  | ok f0 =>
    cases f.eval input.x1 with
    | error e => exact ⟨[], rfl, observed_nil rfl⟩
    | ok f1 =>
      obtain ⟨log, hlog, hwatched⟩ := scheme.iterate_logging f input.config observer
        (input.config.maxIterations - 1) 1 ⟨⟨input.x0, f0⟩, ⟨input.x1, f1⟩⟩ o []
      have hmakes := scheme.iterate_makes f input.config observer
        (input.config.maxIterations - 1) 1 ⟨⟨input.x0, f0⟩, ⟨input.x1, f1⟩⟩ o
      have hreport (seeds : List Iteration) : Reports seeds (·.after seeds) := fun run =>
        ⟨none, by simp [Run.after], nofun⟩
      refine ⟨log, ?_, hwatched.observed f input.config hmakes.isStepsOf rfl (hreport _)⟩
      simp only [hlog]
      rfl

/-- **Observing a run does not change it, and stopping it cuts its history.** -/
theorem observation_is_transparent {σ : Type} (f : Formula) (observer : Observer σ) (o : σ) :
    (∀ input : NewtonInput, ∃ log,
      Newton.runWith f input observer.logging (o, []) =
        ((Newton.runWith f input observer o).1, (Newton.runWith f input observer o).2, log) ∧
      Observed .newtonRaphson 0 (Newton.run f input) (Newton.runWith f input observer o).1 log) ∧
    ∀ input : SecantInput, ∃ log,
      Secant.runWith f input observer.logging (o, []) =
        ((Secant.runWith f input observer o).1, (Secant.runWith f input observer o).2, log) ∧
      Observed .secant 1 (Secant.run f input) (Secant.runWith f input observer o).1 log :=
  ⟨fun input => Newton.observed f input observer o, fun input => Secant.observed f input observer o⟩

/-- An observer that stops the run at its second look leaves the first of two records. A flag that is
not raised does not change a run. -/
theorem identity_stopped_and_observed :
    let f : Formula := ⟨"x", .x⟩
    let newton : NewtonInput := { expression := "x", x0 := 1, derivative := .shortcut }
    let secant : SecantInput := { expression := "x", x0 := 2, x1 := 1 }
    let stopped := (Newton.runWith f newton (.collecting fun looks _ => looks = 2) []).1
    ((Newton.run f newton).iterations.length = 2 ∧ stopped.failure = some (.cancelled 1) ∧
      stopped.totalIterations = 1 ∧ stopped.iterations.length = 1 ∧
      stopped.iterations = (Newton.run f newton).iterations.take 1) ∧
    (Secant.runWith f secant .flag false).1 = Secant.run f secant := by
  intro f newton secant stopped
  constructor
  · obtain ⟨log, hlog, hobserved⟩ :=
      (observation_is_transparent f (.collecting fun looks _ => looks = 2) []).1 newton
    have hstop : log[1]? = some (⟨.newtonRaphson, 1, 0, 0⟩, .stop) := by
      have hentry : (Newton.runWith f newton
          (Observer.collecting fun looks _ => looks = 2).logging ([], [])).2.2[1]? =
            some (⟨.newtonRaphson, 1, 0, 0⟩, .stop) := by decide +kernel
      rwa [hlog] at hentry
    obtain ⟨-, hfailure, htotal, hlength, hhistory⟩ := hobserved.stops 1 _ hstop
    exact ⟨by decide +kernel, hfailure, htotal, hlength, hhistory⟩
  · obtain ⟨log, hlog, hobserved⟩ := (observation_is_transparent f .flag false).2 secant
    have hproceed : ∀ entry ∈ log, entry.2 = .proceed := by
      have hentries : ∀ entry ∈ (Secant.runWith f secant Observer.flag.logging (false, [])).2.2,
          entry.2 = .proceed := by decide +kernel
      rwa [hlog] at hentries
    exact hobserved.proceeds fun step hmem => nomatch hproceed _ hmem

end RealRoots
