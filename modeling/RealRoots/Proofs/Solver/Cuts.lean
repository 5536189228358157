import RealRoots.Proofs.Number.Order
import RealRoots.Proofs.Solver.Coherence
import RealRoots.Proofs.Solver.Stopping

/-!
# Where the configuration cuts the orbit

**Theorem (`configuration_only_cuts`).** Two runs that differ in their configuration have the same
history up to where one of them ends, apart from the errors. If only the tolerance differs, the
looser run is the first to end, its errors are the same, and it converges if the tighter one does.

A pass computes its error from where it started and where it landed, and nothing that is kept
between passes from its error. So the configuration is read only to say how a run ends. The two
parts are a comparison of two runs of passes (`Scheme.Makes.comparable`), where it does not matter
how each of them ended, and a simulation of the tighter run by the looser one
(`Scheme.iterate_cutsNoLater`).
-/

namespace RealRoots

/-! ## Histories apart from errors -/

/-- The record without its error. -/
def Iteration.unjudged (it : Iteration) : Iteration :=
  { it with error := none }

/-- One history begins with the other, apart from the errors. -/
def Comparable (records records' : List Iteration) : Prop :=
  records.map Iteration.unjudged <+: records'.map Iteration.unjudged ∨
    records'.map Iteration.unjudged <+: records.map Iteration.unjudged

theorem Comparable.append {seeds seeds' records records' : List Iteration}
    (hseeds : seeds.map Iteration.unjudged = seeds'.map Iteration.unjudged)
    (h : Comparable records records') : Comparable (seeds ++ records) (seeds' ++ records') := by
  unfold Comparable
  rw [List.map_append, List.map_append, hseeds, List.prefix_append_right_inj,
    List.prefix_append_right_inj]
  exact h

theorem comparable_self (records : List Iteration) : Comparable records records :=
  .inl List.prefix_rfl

theorem comparable_nil (records : List Iteration) : Comparable [] records :=
  .inl List.nil_prefix

theorem nil_comparable (records : List Iteration) : Comparable records [] :=
  .inr List.nil_prefix

namespace Scheme

variable {S σ : Type} {scheme : Scheme S} {f : Formula} {rule rule' : StoppingRule}
  {config config' : SolverConfig} {budget budget' iteration : Nat} {s : S}

/-- **The rule only judges a pass.** -/
theorem advance_unjudged {pass pass' : Advance}
    (h : scheme.advance f rule iteration s = .ok pass)
    (h' : scheme.advance f rule' iteration s = .ok pass') :
    [pass.record].map Iteration.unjudged = [pass'.record].map Iteration.unjudged ∧
      pass.next = pass'.next ∧ pass.value = pass'.value := by
  obtain ⟨divisor, next, hdivisor, -, rfl, -, rfl⟩ := advance_eq_ok.1 h
  obtain ⟨divisor', next', hdivisor', -, rfl, -, rfl⟩ := advance_eq_ok.1 h'
  obtain rfl : divisor = divisor' := Except.ok.inj (hdivisor.symm.trans hdivisor')
  exact ⟨rfl, rfl, rfl⟩

namespace Makes

/-- A run records nothing, or first of all its first pass. -/
theorem history_cases {run : Run} (h : Makes scheme f config budget iteration s run) :
    run.history = [] ∨ ∃ pass rest, run.history = pass.record :: rest ∧
      scheme.advance f config.stoppingRule iteration s = .ok pass := by
  cases h with
  | exhausted | cancelled | breaks => exact .inl rfl
  | converges hpass | leaves hpass => exact .inr ⟨_, [], rfl, hpass⟩
  | goes hpass => exact .inr ⟨_, _, rfl, hpass⟩

/-- **Two runs from one state record the same**, however each of them ends. -/
theorem comparable {run run' : Run} (h : Makes scheme f config budget iteration s run)
    (h' : Makes scheme f config' budget' iteration s run') :
    Comparable run.history run'.history := by
  induction h generalizing budget' run' with
  | exhausted | cancelled | breaks => exact comparable_nil _
  | converges hpass | leaves hpass =>
    rcases h'.history_cases with hnil | ⟨pass', rest, hhistory, hpass'⟩
    · rw [hnil]
      exact nil_comparable _
    · rw [hhistory]
      exact (comparable_nil rest).append (advance_unjudged hpass hpass').1
  | goes hpass _ hvalue _ ih =>
    cases h' with
    | exhausted | cancelled | breaks => exact nil_comparable _
    | converges hpass' | leaves hpass' =>
      exact (nil_comparable _).append (advance_unjudged hpass hpass').1
    | goes hpass' _ hvalue' hrest =>
      obtain ⟨hrecord, hnext, hsame⟩ := advance_unjudged hpass hpass'
      rw [← hsame, hvalue] at hvalue'
      cases hvalue'
      rw [← hnext] at hrest
      exact (ih hrest).append hrecord

end Makes

end Scheme

/-! ## A looser tolerance -/

/-- The configuration with another tolerance. -/
def SolverConfig.withTolerance (config : SolverConfig) (tolerance : Float) : SolverConfig :=
  { config with tolerance }

/-- The first run ends no later, and converges if the second one does. -/
structure Run.CutsNoLater (loose tight : Run) : Prop where
  history : loose.history <+: tight.history
  converged : (∃ root value, tight.ending = .converged root value) →
    ∃ root value, loose.ending = .converged root value

theorem Run.cutsNoLater_self (run : Run) : run.CutsNoLater run :=
  ⟨List.prefix_rfl, id⟩

theorem Run.CutsNoLater.after {loose tight : Run} (h : loose.CutsNoLater tight)
    (records : List Iteration) : (loose.after records).CutsNoLater (tight.after records) :=
  ⟨(List.prefix_append_right_inj records).2 h.history, h.converged⟩

namespace Scheme

variable {S σ : Type} {scheme : Scheme S} {f : Formula} {config : SolverConfig}
  {observer : Observer σ} {budget iteration : Nat} {s : S} {o o' : σ} {tolerance : Float}

/-- A run that makes a pass records it, however it goes on. -/
theorem singleton_isPrefix_of_pass {pass : Advance}
    (hlook : observer.look o (scheme.step iteration s) = (.proceed, o'))
    (hpass : scheme.advance f config.stoppingRule iteration s = .ok pass) :
    [pass.record] <+: (scheme.iterate f config observer (budget + 1) iteration s o).1.history := by
  by_cases hsmall : pass.record.error.any config.isConverged
  · rw [iterate_converges config hlook hpass hsmall]
  · cases hvalue : pass.value with
    | error e => rw [iterate_leaves config hlook hpass hsmall hvalue]
    | ok value =>
      rw [iterate_goes config hlook hpass hsmall hvalue rfl]
      exact List.prefix_append [pass.record] _

/-- **A looser tolerance ends a run no later.** Up to there the two runs, and their observers, are
in the same state. -/
theorem iterate_cutsNoLater (hle : tolerance ≤ config.tolerance) :
    (scheme.iterate f config observer budget iteration s o).1.CutsNoLater
      (scheme.iterate f (config.withTolerance tolerance) observer budget iteration s o).1 := by
  induction budget generalizing iteration s o with
  | zero => exact Run.cutsNoLater_self _
  | succ budget ih =>
    rcases hlook : observer.look o (scheme.step iteration s) with ⟨signal, o'⟩
    cases signal with
    | stop =>
      rw [iterate_stop config hlook, iterate_stop _ hlook]
      exact Run.cutsNoLater_self _
    | proceed =>
      cases hpass : scheme.advance f config.stoppingRule iteration s with
      | error e =>
        rw [iterate_breaks config hlook hpass,
          iterate_breaks (config.withTolerance tolerance) hlook hpass]
        exact Run.cutsNoLater_self _
      | ok pass =>
        by_cases hloose : pass.record.error.any config.isConverged
        · rw [iterate_converges config hlook hpass hloose]
          constructor
          · exact singleton_isPrefix_of_pass hlook hpass
          · exact fun _ => ⟨_, _, rfl⟩
        · have htight : ¬ pass.record.error.any (config.withTolerance tolerance).isConverged := by
            rw [any_isConverged_iff] at hloose ⊢
            rintro ⟨e, he, hlt⟩
            exact hloose ⟨e, he, lt_of_lt_of_le hlt hle⟩
          cases hvalue : pass.value with
          | error e =>
            rw [iterate_leaves config hlook hpass hloose hvalue,
              iterate_leaves (config.withTolerance tolerance) hlook hpass htight hvalue]
            exact Run.cutsNoLater_self _
          | ok value =>
            rw [iterate_goes config hlook hpass hloose hvalue rfl,
              iterate_goes (config.withTolerance tolerance) hlook hpass htight hvalue rfl]
            exact ih.after [pass.record]

end Scheme

/-! ## Results -/

/-- **The first result ends no later.** Its history is the beginning of the other one, errors
included, and it has converged if the other one has. -/
structure RootResult.CutsNoLater (loose tight : RootResult) : Prop where
  iterations : loose.iterations <+: tight.iterations
  total_le : loose.totalIterations ≤ tight.totalIterations
  converged : tight.converged → loose.converged

/-- **The two configurations only cut.** One history begins with the other, apart from the errors,
and the result with the looser tolerance ends no later if nothing else differs. -/
structure OnlyCuts (config config' : SolverConfig) (result result' : RootResult) : Prop where
  comparable : Comparable result.iterations result'.iterations
  cutsNoLater : config'.stoppingRule = config.stoppingRule →
    config'.maxIterations = config.maxIterations → config'.tolerance ≤ config.tolerance →
    result.CutsNoLater result'

/-- A run that does not read its configuration. -/
theorem onlyCuts_toResult (run : Run) (method : Method) (f : Formula)
    (config config' : SolverConfig) :
    OnlyCuts config config' (run.toResult method f config) (run.toResult method f config') := by
  constructor
  · rw [Run.toResult_iterations, Run.toResult_iterations]
    exact comparable_self _
  · intro _ _ _
    constructor
    · rw [Run.toResult_iterations, Run.toResult_iterations]
    · rw [Run.toResult_totalIterations, Run.toResult_totalIterations]
    · rw [Run.toResult_converged_iff, Run.toResult_converged_iff]
      exact id

/-- The passes of two runs, reported after the records of the guesses. -/
theorem Scheme.onlyCuts {S σ : Type} {scheme : Scheme S} {f : Formula}
    {config config' : SolverConfig} {observer : Observer σ} {budget budget' iteration : Nat} {s : S}
    {o last last' : σ} {run run' : Run}
    (hrun : scheme.iterate f config observer budget iteration s o = (run, last))
    (hrun' : scheme.iterate f config' observer budget' iteration s o = (run', last'))
    (hbudget : iteration + budget = config.maxIterations)
    (hbudget' : iteration + budget' = config'.maxIterations) (method : Method)
    (seeds : StoppingRule → List Iteration) (hseeds : ∀ rule rule',
      (seeds rule).map Iteration.unjudged = (seeds rule').map Iteration.unjudged) :
    OnlyCuts config config' ((run.after (seeds config.stoppingRule)).toResult method f config)
      ((run'.after (seeds config'.stoppingRule)).toResult method f config') := by
  have hmakes := makes_of_iterate hrun
  have hmakes' := makes_of_iterate hrun'
  constructor
  · rw [Run.toResult_iterations, Run.toResult_iterations]
    exact (hmakes.comparable hmakes').append (hseeds _ _)
  · intro hrule hlimit hle
    obtain rfl : budget' = budget := by omega
    have hconfig : config' = config.withTolerance config'.tolerance := by
      unfold SolverConfig.withTolerance
      rw [← hrule, ← hlimit]
    have hcuts : (scheme.iterate f config observer budget' iteration s o).1.CutsNoLater
        (scheme.iterate f config' observer budget' iteration s o).1 := by
      rw [hconfig]
      exact iterate_cutsNoLater hle
    rw [hrun, hrun'] at hcuts
    have hlength : run.history.length ≤ run'.history.length := hcuts.history.length_le
    constructor
    · rw [Run.toResult_iterations, Run.toResult_iterations, hrule]
      exact (hcuts.after _).history
    · rw [Run.toResult_totalIterations, Run.toResult_totalIterations]
      show run.total ≤ run'.total
      rw [hmakes.total_eq hbudget, hmakes'.total_eq hbudget']
      omega
    · rw [Run.toResult_converged_iff, Run.toResult_converged_iff]
      exact hcuts.converged

namespace Newton

theorem onlyCuts {σ : Type} (f : Formula) {input : NewtonInput}
    (hasked : input.recordFinalPoint = false) (observer : Observer σ) (o : σ)
    (config config' : SolverConfig) :
    OnlyCuts config config' (runWith f { input with config } observer o).1
      (runWith f { input with config := config' } observer o).1 := by
  cases hvalue : f.eval input.x0 with
  | error e =>
    rw [runWith_of_error { input with config } hvalue,
      runWith_of_error { input with config := config' } hvalue]
    exact onlyCuts_toResult (.failing (.ofEvalError e) 0) .newtonRaphson f config config'
  | ok value =>
    rcases hrun : (scheme f input.derivative).iterate f config observer config.maxIterations 0
      ⟨input.x0, value⟩ o with ⟨run, last⟩
    rcases hrun' : (scheme f input.derivative).iterate f config' observer config'.maxIterations 0
      ⟨input.x0, value⟩ o with ⟨run', last'⟩
    rw [runWith_of_not_asked { input with config } hasked hvalue hrun,
      runWith_of_not_asked { input with config := config' } hasked hvalue hrun']
    exact Scheme.onlyCuts hrun hrun' (Nat.zero_add _) (Nat.zero_add _) .newtonRaphson
      (fun _ => []) fun _ _ => rfl

end Newton

namespace Secant

theorem onlyCuts {σ : Type} (f : Formula) (input : SecantInput) (observer : Observer σ) (o : σ)
    {config config' : SolverConfig} (h : config.validate = .ok ())
    (h' : config'.validate = .ok ()) :
    OnlyCuts config config' (runWith f { input with config } observer o).1
      (runWith f { input with config := config' } observer o).1 := by
  obtain ⟨-, hlimit⟩ := SolverConfig.validate_eq_ok.1 h
  obtain ⟨-, hlimit'⟩ := SolverConfig.validate_eq_ok.1 h'
  cases h0 : f.eval input.x0 with
  | error e =>
    rw [runWith_of_first_error { input with config } h0,
      runWith_of_first_error { input with config := config' } h0]
    exact onlyCuts_toResult (.failing (.ofEvalError e) 0) .secant f config config'
  | ok f0 =>
    cases h1 : f.eval input.x1 with
    | error e =>
      rw [runWith_of_second_error { input with config } h0 h1,
        runWith_of_second_error { input with config := config' } h0 h1]
      exact onlyCuts_toResult ((Run.failing (.ofEvalError e) 0).after [firstSeed ⟨input.x0, f0⟩])
        .secant f config config'
    | ok f1 =>
      rcases hrun : scheme.iterate f config observer (config.maxIterations - 1) 1
        ⟨⟨input.x0, f0⟩, ⟨input.x1, f1⟩⟩ o with ⟨run, last⟩
      rcases hrun' : scheme.iterate f config' observer (config'.maxIterations - 1) 1
        ⟨⟨input.x0, f0⟩, ⟨input.x1, f1⟩⟩ o with ⟨run', last'⟩
      rw [runWith_of_ok { input with config } h0 h1 hrun,
        runWith_of_ok { input with config := config' } h0 h1 hrun']
      -- The rule judges the second guess, and nothing else differs in the records of the guesses.
      exact Scheme.onlyCuts hrun hrun' (by omega) (by omega) .secant
        (fun rule => [firstSeed ⟨input.x0, f0⟩,
          secondSeed rule ⟨input.x0, f0⟩ ⟨input.x1, f1⟩]) fun _ _ => rfl

end Secant

/-- **Tolerance, limit and rule only decide where the orbit is cut.** -/
theorem configuration_only_cuts {σ : Type} (f : Formula) (observer : Observer σ) (o : σ)
    (config config' : SolverConfig) :
    (∀ input : NewtonInput, input.recordFinalPoint = false → OnlyCuts config config'
      (Newton.runWith f { input with config } observer o).1
      (Newton.runWith f { input with config := config' } observer o).1) ∧
    ∀ input : SecantInput, config.validate = .ok () → config'.validate = .ok () →
      OnlyCuts config config' (Secant.runWith f { input with config } observer o).1
        (Secant.runWith f { input with config := config' } observer o).1 :=
  ⟨fun _ hasked => Newton.onlyCuts f hasked observer o config config',
    fun input h h' => Secant.onlyCuts f input observer o h h'⟩

/-- The runs for `x` take a step of length one to the root. With a tolerance of two they converge
there, and with one half they take another step first. -/
theorem looser_identity_converges_first :
    let f : Formula := ⟨"x", .x⟩
    let newton : NewtonInput := { expression := "x", x0 := 1, derivative := .shortcut }
    let secant : SecantInput := { expression := "x", x0 := 2, x1 := 1 }
    let newtonWith config := (Newton.runWith f { newton with config } .silent ()).1
    let secantWith config := (Secant.runWith f { secant with config } .silent ()).1
    let loose : SolverConfig := { tolerance := 2 }
    let tight : SolverConfig := { tolerance := 0.5 }
    (newton.recordFinalPoint = false ∧ (newtonWith loose).totalIterations = 1 ∧
      (newtonWith tight).totalIterations = 2 ∧ (newtonWith loose).CutsNoLater (newtonWith tight)) ∧
    loose.validate = .ok () ∧ tight.validate = .ok () ∧
      (secantWith loose).totalIterations = 2 ∧ (secantWith tight).totalIterations = 3 ∧
      (secantWith loose).CutsNoLater (secantWith tight) := by
  intro f newton secant newtonWith secantWith loose tight
  have hloose : loose.validate = .ok () := SolverConfig.validate_eq_ok.2 (by decide +kernel)
  have htight : tight.validate = .ok () := SolverConfig.validate_eq_ok.2 (by decide +kernel)
  have hle : tight.tolerance ≤ loose.tolerance := by decide +kernel
  have hcuts := configuration_only_cuts f .silent () loose tight
  refine ⟨⟨rfl, by decide +kernel, by decide +kernel, ?_⟩, hloose, htight, by decide +kernel,
    by decide +kernel, ?_⟩
  · exact (hcuts.1 newton rfl).cutsNoLater rfl rfl hle
  · exact (hcuts.2 secant hloose htight).cutsNoLater rfl rfl hle

end RealRoots
