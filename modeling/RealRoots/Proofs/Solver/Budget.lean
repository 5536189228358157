import RealRoots.Proofs.Solver.Coherence
import RealRoots.Proofs.Solver.Stopping

/-!
# Raising the iteration limit

**Theorem (`limit_only_extends`).** A run that ends before its iterations run out is the same with
any larger limit, and leaves its observer in the same state. A run that is out of iterations has
recorded all that it could, and a run with a larger limit begins with these records.

A pass does not read the limit: it ends the run, or goes on from the same state, whatever the limit
is (`Scheme.iterate_succ_cases`). The limit is read in two places only, where the passes run out and
where the result is reported.
-/

namespace RealRoots

/-- The configuration with another iteration limit. -/
def SolverConfig.withLimit (config : SolverConfig) (limit : Nat) : SolverConfig :=
  { config with maxIterations := limit }

/-- The run ended because its iterations ran out. -/
def Run.IsExhausted (run : Run) : Prop :=
  ∃ e, run.ending = .failed e ∧ e.kind = .maxIterationsReached

namespace Scheme

variable {S σ : Type}

/-- **A pass does not read the limit.** -/
theorem iterate_succ_cases (scheme : Scheme S) (f : Formula) (config : SolverConfig)
    (observer : Observer σ) (iteration : Nat) (s : S) (o : σ) :
    (∃ outcome, ∀ limit budget,
      scheme.iterate f (config.withLimit limit) observer (budget + 1) iteration s o = outcome) ∨
    ∃ record s' o', ∀ limit budget run last,
      scheme.iterate f (config.withLimit limit) observer budget (iteration + 1) s' o' =
        (run, last) →
      scheme.iterate f (config.withLimit limit) observer (budget + 1) iteration s o =
        (run.after [record], last) := by
  rcases hlook : observer.look o (scheme.step iteration s) with ⟨signal, o'⟩
  cases signal with
  | stop => exact .inl ⟨_, fun _ _ => iterate_stop _ hlook⟩
  | proceed =>
    cases hpass : scheme.advance f config.stoppingRule iteration s with
    | error e => exact .inl ⟨_, fun limit _ => iterate_breaks (config.withLimit limit) hlook hpass⟩
    | ok pass =>
      by_cases hsmall : pass.record.error.any config.isConverged
      · exact .inl ⟨_, fun limit _ =>
          iterate_converges (config.withLimit limit) hlook hpass hsmall⟩
      · cases hvalue : pass.value with
        | error e =>
          exact .inl ⟨_, fun limit _ =>
            iterate_leaves (config.withLimit limit) hlook hpass hsmall hvalue⟩
        | ok value =>
          exact .inr ⟨_, _, o', fun limit _ _ _ hrun =>
            iterate_goes (config.withLimit limit) hlook hpass hsmall hvalue hrun⟩

section

variable {scheme : Scheme S} {f : Formula} {config : SolverConfig} {observer : Observer σ}
  {limit limit' budget budget' iteration : Nat} {s : S} {o : σ}

/-- A run that does not use up its budget is the same with a larger one. -/
theorem iterate_eq_of_le (hle : budget ≤ budget')
    (h : ¬ (scheme.iterate f (config.withLimit limit) observer budget iteration s
      o).1.IsExhausted) :
    scheme.iterate f (config.withLimit limit') observer budget' iteration s o =
      scheme.iterate f (config.withLimit limit) observer budget iteration s o := by
  induction budget generalizing budget' iteration s o with
  | zero => exact absurd ⟨_, rfl, rfl⟩ h
  | succ budget ih =>
    obtain ⟨budget', rfl⟩ := Nat.exists_eq_add_of_le' (Nat.le_of_add_left_le hle)
    rcases scheme.iterate_succ_cases f config observer iteration s o with
      ⟨outcome, houtcome⟩ | ⟨record, s', o', hgoes⟩
    · rw [houtcome, houtcome]
    · rcases hrun : scheme.iterate f (config.withLimit limit) observer budget (iteration + 1) s' o'
        with ⟨run, last⟩
      rw [hgoes _ _ _ _ hrun] at h ⊢
      apply hgoes
      rw [← hrun]
      apply ih (Nat.le_of_succ_le_succ hle)
      rw [hrun]
      exact h

/-- A run records what it would record with a larger budget, until its own is used up. -/
theorem history_eq_take (hle : budget ≤ budget') :
    (scheme.iterate f (config.withLimit limit) observer budget iteration s o).1.history =
      (scheme.iterate f (config.withLimit limit') observer budget' iteration s o).1.history.take
        budget := by
  induction budget generalizing budget' iteration s o with
  | zero => rfl
  | succ budget ih =>
    obtain ⟨budget', rfl⟩ := Nat.exists_eq_add_of_le' (Nat.le_of_add_left_le hle)
    rcases scheme.iterate_succ_cases f config observer iteration s o with
      ⟨outcome, houtcome⟩ | ⟨record, s', o', hgoes⟩
    · have hlength := (scheme.iterate_makes f (config.withLimit limit) observer (budget + 1)
        iteration s o).length_le
      rw [houtcome] at hlength
      rw [houtcome, houtcome, List.take_of_length_le hlength]
    · rcases hrun : scheme.iterate f (config.withLimit limit) observer budget (iteration + 1) s' o'
        with ⟨run, last⟩
      rcases hrun' : scheme.iterate f (config.withLimit limit') observer budget' (iteration + 1) s'
        o' with ⟨run', last'⟩
      have hrest : (scheme.iterate f (config.withLimit limit) observer budget (iteration + 1) s'
          o').1.history = (scheme.iterate f (config.withLimit limit') observer budget'
          (iteration + 1) s' o').1.history.take budget := ih (Nat.le_of_succ_le_succ hle)
      rw [hrun, hrun'] at hrest
      rw [hgoes _ _ _ _ hrun, hgoes _ _ _ _ hrun']
      show record :: run.history = (record :: run'.history).take (budget + 1)
      rw [List.take_succ_cons, hrest]

end

end Scheme

/-! ## Results -/

/-- **What a larger limit makes of a result**, each with the last state of its observer. A run that
did not run out of iterations is the same. One that did has recorded `count` records, which are
those that the longer one begins with. -/
structure Extends {σ : Type} (limit count : Nat) (shorter longer : RootResult × σ) : Prop where
  same : ¬ shorter.1.IsExhausted → longer = ({ shorter.1 with maxIterations := limit }, shorter.2)
  goesOn : shorter.1.IsExhausted → shorter.1.iterations.length = count ∧
    shorter.1.iterations = longer.1.iterations.take count

namespace Run

variable {run : Run} {method : Method} {f : Formula} {config : SolverConfig}

/-- The limit is reported, and that is all that a result takes from it. -/
theorem toResult_withLimit (limit limit' : Nat) :
    run.toResult method f (config.withLimit limit') =
      { run.toResult method f (config.withLimit limit) with maxIterations := limit' } := by
  unfold toResult
  cases run.ending <;> rfl

/-- A run that fails before its first pass is the same whatever its limit. -/
theorem extends_failing {σ : Type} (limit limit' count : Nat) (records : List Iteration)
    (e : EvalError) (total : Nat) (last : σ) :
    Extends limit' count
      (((failing (.ofEvalError e) total).after records).toResult method f
        (config.withLimit limit), last)
      (((failing (.ofEvalError e) total).after records).toResult method f
        (config.withLimit limit'), last) where
  same _ := congrArg (·, last) (toResult_withLimit limit limit')
  goesOn h := absurd h nofun

end Run

/-- The passes of a run, reported after the records of the guesses. -/
theorem Scheme.extends_of_le {S σ : Type} {scheme : Scheme S} {f : Formula} {config : SolverConfig}
    {observer : Observer σ} {limit limit' budget budget' iteration : Nat} {s : S} {o : σ}
    (hle : budget ≤ budget')
    (hkind : ∀ iteration s e, scheme.advance f config.stoppingRule iteration s = .error e →
      e.kind ≠ .maxIterationsReached)
    {run run' : Run} {last last' : σ}
    (hrun : scheme.iterate f (config.withLimit limit) observer budget iteration s o = (run, last))
    (hrun' : scheme.iterate f (config.withLimit limit') observer budget' iteration s o =
      (run', last')) (method : Method) (seeds : List Iteration) :
    Extends limit' (seeds.length + budget)
      ((run.after seeds).toResult method f (config.withLimit limit), last)
      ((run'.after seeds).toResult method f (config.withLimit limit'), last') := by
  have hexhausted : ((run.after seeds).toResult method f (config.withLimit limit)).IsExhausted ↔
      run.IsExhausted := isExhausted_toResult_iff
  constructor
  · intro h
    have hsame : scheme.iterate f (config.withLimit limit') observer budget' iteration s o =
        scheme.iterate f (config.withLimit limit) observer budget iteration s o := by
      apply iterate_eq_of_le hle
      rw [hrun]
      exact fun hend => h (hexhausted.2 hend)
    rw [hrun, hrun'] at hsame
    cases hsame
    exact congrArg (·, last) (Run.toResult_withLimit limit limit')
  · intro h
    obtain ⟨hlength, -⟩ := ((makes_of_iterate hrun).exhausted_iff hkind).1 (hexhausted.1 h)
    have htake : (scheme.iterate f (config.withLimit limit) observer budget iteration s
        o).1.history = (scheme.iterate f (config.withLimit limit') observer budget' iteration s
        o).1.history.take budget := history_eq_take hle
    rw [hrun, hrun'] at htake
    rw [Run.toResult_iterations, Run.toResult_iterations]
    show (seeds ++ run.history).length = seeds.length + budget ∧
      seeds ++ run.history = (seeds ++ run'.history).take (seeds.length + budget)
    rw [List.length_append, List.take_length_add_append, hlength, htake]
    exact ⟨rfl, rfl⟩

namespace Newton

theorem extends_of_le {σ : Type} (f : Formula) {input : NewtonInput}
    (hasked : input.recordFinalPoint = false) (observer : Observer σ) (o : σ) {limit limit' : Nat}
    (hle : limit ≤ limit') : Extends limit' limit
      (runWith f { input with config := input.config.withLimit limit } observer o)
      (runWith f { input with config := input.config.withLimit limit' } observer o) := by
  cases hvalue : f.eval input.x0 with
  | error e =>
    rw [runWith_of_error { input with config := input.config.withLimit limit } hvalue,
      runWith_of_error { input with config := input.config.withLimit limit' } hvalue]
    exact Run.extends_failing limit limit' limit [] e 0 o
  | ok value =>
    rcases hrun : (scheme f input.derivative).iterate f (input.config.withLimit limit) observer
      limit 0 ⟨input.x0, value⟩ o with ⟨run, last⟩
    rcases hrun' : (scheme f input.derivative).iterate f (input.config.withLimit limit') observer
      limit' 0 ⟨input.x0, value⟩ o with ⟨run', last'⟩
    rw [runWith_of_not_asked { input with config := input.config.withLimit limit } hasked hvalue
        hrun,
      runWith_of_not_asked { input with config := input.config.withLimit limit' } hasked hvalue
        hrun']
    have hextends := Scheme.extends_of_le hle (fun _ _ _ => kind_of_advance_eq_error) hrun hrun'
      .newtonRaphson []
    rwa [List.length_nil, Nat.zero_add] at hextends

end Newton

namespace Secant

theorem extends_of_le {σ : Type} (f : Formula) (input : SecantInput) (observer : Observer σ)
    (o : σ) {limit limit' : Nat} (hpos : 1 ≤ limit) (hle : limit ≤ limit') :
    Extends limit' (limit + 1)
      (runWith f { input with config := input.config.withLimit limit } observer o)
      (runWith f { input with config := input.config.withLimit limit' } observer o) := by
  cases h0 : f.eval input.x0 with
  | error e =>
    rw [runWith_of_first_error { input with config := input.config.withLimit limit } h0,
      runWith_of_first_error { input with config := input.config.withLimit limit' } h0]
    exact Run.extends_failing limit limit' (limit + 1) [] e 0 o
  | ok f0 =>
    cases h1 : f.eval input.x1 with
    | error e =>
      rw [runWith_of_second_error { input with config := input.config.withLimit limit } h0 h1,
        runWith_of_second_error { input with config := input.config.withLimit limit' } h0 h1]
      exact Run.extends_failing limit limit' (limit + 1) [firstSeed ⟨input.x0, f0⟩] e 0 o
    | ok f1 =>
      rcases hrun : scheme.iterate f (input.config.withLimit limit) observer (limit - 1) 1
        ⟨⟨input.x0, f0⟩, ⟨input.x1, f1⟩⟩ o with ⟨run, last⟩
      rcases hrun' : scheme.iterate f (input.config.withLimit limit') observer (limit' - 1) 1
        ⟨⟨input.x0, f0⟩, ⟨input.x1, f1⟩⟩ o with ⟨run', last'⟩
      rw [runWith_of_ok { input with config := input.config.withLimit limit } h0 h1 hrun,
        runWith_of_ok { input with config := input.config.withLimit limit' } h0 h1 hrun']
      have hcount : limit + 1 = 2 + (limit - 1) := by omega
      rw [hcount]
      exact Scheme.extends_of_le (Nat.sub_le_sub_right hle 1)
        (fun _ _ _ => kind_of_advance_eq_error) hrun hrun' .secant [_, _]

end Secant

/-- **A larger iteration limit only extends a run.** -/
theorem limit_only_extends {σ : Type} (f : Formula) (observer : Observer σ) (o : σ)
    {limit limit' : Nat} (hpos : 1 ≤ limit) (hle : limit ≤ limit') :
    (∀ input : NewtonInput, input.recordFinalPoint = false → Extends limit' limit
      (Newton.runWith f { input with config := input.config.withLimit limit } observer o)
      (Newton.runWith f { input with config := input.config.withLimit limit' } observer o)) ∧
    ∀ input : SecantInput, Extends limit' (limit + 1)
      (Secant.runWith f { input with config := input.config.withLimit limit } observer o)
      (Secant.runWith f { input with config := input.config.withLimit limit' } observer o) :=
  ⟨fun _ hasked => Newton.extends_of_le f hasked observer o hle,
    fun input => Secant.extends_of_le f input observer o hpos hle⟩

/-- The runs for `x` with a limit of one run out of iterations, and those with a limit of three
converge after them. -/
theorem limit_extends_identity :
    let f : Formula := ⟨"x", .x⟩
    let newton : NewtonInput := { expression := "x", x0 := 1, derivative := .shortcut }
    let secant : SecantInput := { expression := "x", x0 := 2, x1 := 1 }
    let newtonWith limit :=
      Newton.runWith f { newton with config := newton.config.withLimit limit } .silent ()
    let secantWith limit :=
      Secant.runWith f { secant with config := secant.config.withLimit limit } .silent ()
    (newton.recordFinalPoint = false ∧ (newtonWith 1).1.IsExhausted ∧ (newtonWith 3).1.converged ∧
      Extends 3 1 (newtonWith 1) (newtonWith 3)) ∧
    (secantWith 1).1.IsExhausted ∧ (secantWith 3).1.converged ∧
      Extends 3 2 (secantWith 1) (secantWith 3) := by
  intro f newton secant newtonWith secantWith
  have hextends := limit_only_extends f .silent () (Nat.le_refl 1) (show 1 ≤ 3 by decide)
  refine ⟨⟨rfl, by decide +kernel, by decide +kernel, ?_⟩, by decide +kernel, by decide +kernel, ?_⟩
  · exact hextends.1 newton rfl
  · exact hextends.2 secant

end RealRoots
