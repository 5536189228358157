import Mathlib
import RealRoots.Comparison
import RealRoots.Proofs.Parsing.Exactness
import RealRoots.Proofs.Parsing.Spacing
import RealRoots.Proofs.Solver.Coherence
import RealRoots.Proofs.Solver.Refusal

/-!
# A comparison is two separate runs

**Theorem (`comparison_is_two_runs`).** A comparison has both results exactly where each method
alone has one. They are the results of the separate runs but for the time, and the judgments are
those on them. Otherwise the error is that of Newton-Raphson if it is about a parameter, and that of
the secant method if not.

A comparison checks both inputs before it reads the text, and reads it once. A separate run checks
its own input and reads the text again. `ComparisonInput.cases_separate` goes through the places
where the one or the other can stop.

The two runs may be made at the same time, and in any order. What makes them is a parameter here
(`Join`), of which only is assumed that both results come back.
-/

namespace RealRoots

/-! ## Two runs at once -/

/-- Makes two runs, in some order or at the same time. -/
abbrev Join : Type := (Unit → RootResult) → (Unit → RootResult) → RootResult × RootResult

namespace Join

/-- Both results come back, each with the time that the run took. -/
def ReturnsBoth (join : Join) : Prop :=
  ∀ first second, ∃ s t, join first second = ((first ()).timed s, (second ()).timed t)

/-- One run after the other, without a clock. -/
def sequential : Join := fun first second => (first (), second ())

end Join

namespace ComparisonInput

variable {input : ComparisonInput}

/-- The comparison whose two runs are made by `join`. -/
def solveBy (join : Join) (input : ComparisonInput) : Except SolverError Comparison := do
  let f ← input.formula
  let (a, b) :=
    join (fun _ => Newton.run f input.newtonInput) (fun _ => Secant.run f input.secantInput)
  .ok (.judge (.ofResult a) (.ofResult b))

theorem solveBy_sequential (input : ComparisonInput) : input.solveBy .sequential = input.solve :=
  rfl

end ComparisonInput

/-! ## Separate runs -/

theorem Newton.solve_eq (input : NewtonInput) :
    solve input = start input.demands input.expression >>= fun f => .ok (run f input) := by
  rw [solve, solveObserved, input.formula_eq]
  cases start input.demands input.expression <;> rfl

theorem Secant.solve_eq (input : SecantInput) :
    solve input = start input.demands input.expression >>= fun f => .ok (run f input) := by
  rw [solve, solveObserved, input.formula_eq]
  cases start input.demands input.expression <;> rfl

/-- The error that a demand does not hold is about a parameter. -/
theorem kind_of_firstUnmet {demands : List Demand} {e : SolverError}
    (h : firstUnmet demands = .error e) : e.kind = .invalidParameter := by
  obtain ⟨_, d, _, -, -, -, rfl⟩ := firstUnmet_eq_error.1 h
  rfl

/-- The error about a text is not about a parameter. -/
theorem kind_of_readFormula {text : String} {e : SolverError} (h : readFormula text = .error e) :
    e.kind = .invalidExpression := by
  obtain ⟨e', -, rfl⟩ := mapError_eq_error.1 h
  rfl

theorem source_of_readFormula {text : String} {f : Formula} (h : readFormula text = .ok f) :
    f.source = Text.trim text :=
  (Formula.read_source (mapError_eq_ok.1 h)).1

/-- The formula of one name. -/
theorem readFormula_x : readFormula "x" = .ok ⟨"x", .x⟩ := by
  have htrim : Text.trim "x" = "x" := by decide +kernel
  have hcheck : Formula.check ⟨"x", .x⟩ = .ok () := toOption_eq_some.1 (by decide +kernel)
  rw [readFormula, Formula.read, Formula.parse, parse_x, ok_bind, ok_bind, htrim, hcheck, ok_bind]
  rfl

@[simp] theorem Run.toResult_expression {run : Run} {method : Method} {f : Formula}
    {config : SolverConfig} : (run.toResult method f config).expression = f.source := by
  unfold toResult
  split
  rfl

theorem Newton.run_expression (f : Formula) (input : NewtonInput) :
    (run f input).expression = f.source := by
  unfold run runWith
  exact Run.toResult_expression

theorem Newton.run_method (f : Formula) (input : NewtonInput) :
    (run f input).method = .newtonRaphson := by
  unfold run runWith
  exact Run.toResult_method

theorem Secant.run_expression (f : Formula) (input : SecantInput) :
    (run f input).expression = f.source := by
  unfold run runWith
  exact Run.toResult_expression

theorem Secant.run_method (f : Formula) (input : SecantInput) :
    (run f input).method = .secant := by
  unfold run runWith
  exact Run.toResult_method

namespace ComparisonInput

variable (input : ComparisonInput)

theorem formula_eq : input.formula =
    firstUnmet input.newtonInput.demands >>= fun _ =>
      start input.secantInput.demands input.expression := by
  rw [formula, validate, NewtonInput.validate_eq, SecantInput.validate_eq, bind_assoc]
  rfl

/-- **Where a comparison and the separate runs stop.** -/
theorem cases_separate :
    (∃ e, e.kind = .invalidParameter ∧ input.formula = .error e ∧
      Newton.solve input.newtonInput = .error e) ∨
    (∃ e, input.formula = .error e ∧ Secant.solve input.secantInput = .error e ∧
      ∀ e', Newton.solve input.newtonInput = .error e' → e'.kind ≠ .invalidParameter) ∨
    ∃ f, f.source = Text.trim input.expression ∧ input.formula = .ok f ∧
      Newton.solve input.newtonInput = .ok (Newton.run f input.newtonInput) ∧
      Secant.solve input.secantInput = .ok (Secant.run f input.secantInput) := by
  have htext : input.newtonInput.expression = input.expression := rfl
  have htext' : input.secantInput.expression = input.expression := rfl
  simp only [formula_eq, Newton.solve_eq, Secant.solve_eq, start, htext, htext']
  cases hnewton : firstUnmet input.newtonInput.demands with
  | error e => exact .inl ⟨e, kind_of_firstUnmet hnewton, rfl, rfl⟩
  | ok _ =>
    cases hread : readFormula input.expression with
    | error e =>
      -- The secant method stops at a parameter or at the text, Newton-Raphson at the text.
      have hkind (e' : SolverError) (h : Except.error e = (Except.error e' : Except _ RootResult)) :
          e'.kind ≠ .invalidParameter := by
        cases h
        rw [kind_of_readFormula hread]
        decide
      refine .inr (.inl ?_)
      cases firstUnmet input.secantInput.demands with
      | error e' => exact ⟨e', rfl, rfl, hkind⟩
      | ok _ => exact ⟨e, rfl, rfl, hkind⟩
    | ok f =>
      cases firstUnmet input.secantInput.demands with
      | error e => exact .inr (.inl ⟨e, rfl, rfl, fun _ h => by cases h⟩)
      | ok _ => exact .inr (.inr ⟨f, source_of_readFormula hread, rfl, rfl, rfl⟩)

end ComparisonInput

/-! ## Comparisons -/

/-- The comparison of two results. Nothing but the times depends on how long the runs took. -/
structure Comparison.Compares (c : Comparison) (a b : RootResult) : Prop where
  first : ∃ ms, c.first = ⟨"Newton-Raphson", a.timed ms⟩
  second : ∃ ms, c.second = ⟨"Secant", b.timed ms⟩
  winner : c.winner = (judge (.ofResult a) (.ofResult b)).winner
  winnerByIterations : c.winnerByIterations = byIterations a b
  winnerByAccuracy : c.winnerByAccuracy = byAccuracy a b
  winnerByRate : c.winnerByRate = byRate a b
  iterationDelta : c.iterationDelta = (judge (.ofResult a) (.ofResult b)).iterationDelta

theorem Comparison.compares_judge {a b : RootResult} (ha : a.method = .newtonRaphson)
    (hb : b.method = .secant) (s t : Float) :
    (judge (.ofResult (a.timed s)) (.ofResult (b.timed t))).Compares a b := by
  constructor
  · exact ⟨s, congrArg (NamedResult.mk · _) (congrArg Method.name ha)⟩
  · exact ⟨t, congrArg (NamedResult.mk · _) (congrArg Method.name hb)⟩
  all_goals rfl

/-- The outcome of a comparison is that of the two methods, each run on its own input. -/
structure ComparisonInput.IsTwoRuns (input : ComparisonInput)
    (outcome : Except SolverError Comparison) : Prop where
  /-- There is a comparison if each method alone has a result. -/
  ok_iff : (∃ c, outcome = .ok c) ↔
    (∃ a, Newton.solve input.newtonInput = .ok a) ∧ ∃ b, Secant.solve input.secantInput = .ok b
  /-- It is that of their results, which tell the text without the blanks at its ends. -/
  compares : ∀ a b c, Newton.solve input.newtonInput = .ok a →
    Secant.solve input.secantInput = .ok b → outcome = .ok c →
    c.Compares a b ∧ a.expression = Text.trim input.expression ∧
      b.expression = Text.trim input.expression
  /-- The error of Newton-Raphson goes first if it is about a parameter. -/
  error_iff : ∀ e, outcome = .error e ↔
    (Newton.solve input.newtonInput = .error e ∧ e.kind = .invalidParameter) ∨
    (Secant.solve input.secantInput = .error e ∧
      ∀ e', Newton.solve input.newtonInput = .error e' → e'.kind ≠ .invalidParameter)

namespace ComparisonInput.IsTwoRuns

variable {input : ComparisonInput}

/-- Newton-Raphson objects to a parameter. -/
theorem of_newton_error {e : SolverError} (hkind : e.kind = .invalidParameter)
    (hnewton : Newton.solve input.newtonInput = .error e) : input.IsTwoRuns (.error e) := by
  constructor
  · simp [hnewton]
  · intro a b c ha
    cases hnewton.symm.trans ha
  · intro e'
    rw [hnewton]
    constructor
    · intro h
      cases h
      exact .inl ⟨rfl, hkind⟩
    · rintro (⟨h, -⟩ | ⟨-, h⟩)
      · cases h
        rfl
      · exact absurd hkind (h e rfl)

/-- The secant method objects, and Newton-Raphson does not object to a parameter. -/
theorem of_secant_error {e : SolverError} (hsecant : Secant.solve input.secantInput = .error e)
    (hkind : ∀ e', Newton.solve input.newtonInput = .error e' → e'.kind ≠ .invalidParameter) :
    input.IsTwoRuns (.error e) := by
  constructor
  · simp [hsecant]
  · intro a b c _ hb
    cases hsecant.symm.trans hb
  · intro e'
    rw [hsecant]
    constructor
    · intro h
      cases h
      exact .inr ⟨rfl, hkind⟩
    · rintro (⟨h, hkind'⟩ | ⟨h, -⟩)
      · exact absurd hkind' (hkind e' h)
      · cases h
        rfl

/-- Both methods have a result. -/
theorem of_results {a b : RootResult} {c : Comparison}
    (hnewton : Newton.solve input.newtonInput = .ok a)
    (hsecant : Secant.solve input.secantInput = .ok b) (hc : c.Compares a b)
    (ha : a.expression = Text.trim input.expression)
    (hb : b.expression = Text.trim input.expression) : input.IsTwoRuns (.ok c) := by
  constructor
  · simp [hnewton, hsecant]
  · intro a' b' c' ha' hb' hc'
    cases hnewton.symm.trans ha'
    cases hsecant.symm.trans hb'
    cases hc'
    exact ⟨hc, ha, hb⟩
  · intro e
    rw [hnewton, hsecant]
    simp

end ComparisonInput.IsTwoRuns

/-- **A comparison is two separate runs**, in whatever order the two are made. -/
theorem comparison_is_two_runs {join : Join} (hjoin : join.ReturnsBoth) (input : ComparisonInput) :
    input.IsTwoRuns (input.solveBy join) := by
  rcases input.cases_separate with
    ⟨e, hkind, hformula, hnewton⟩ | ⟨e, hformula, hsecant, hkind⟩ |
      ⟨f, hsource, hformula, hnewton, hsecant⟩
  · rw [ComparisonInput.solveBy, hformula, error_bind]
    exact .of_newton_error hkind hnewton
  · rw [ComparisonInput.solveBy, hformula, error_bind]
    exact .of_secant_error hsecant hkind
  · obtain ⟨s, t, hruns⟩ := hjoin (fun _ => Newton.run f input.newtonInput)
      (fun _ => Secant.run f input.secantInput)
    have hcompares := Comparison.compares_judge (Newton.run_method f input.newtonInput)
      (Secant.run_method f input.secantInput) s t
    rw [ComparisonInput.solveBy, hformula, ok_bind, hruns]
    apply ComparisonInput.IsTwoRuns.of_results hnewton hsecant hcompares
    · rw [Newton.run_expression, hsource]
    · rw [Secant.run_expression, hsource]

/-- Makes the second run first, and clocks both. -/
def Join.secondFirst : Join := fun first second =>
  let b := (second ()).timed 2
  let a := (first ()).timed 1
  (a, b)

/-- Both methods have a result for `x` from `1` and `2`, and it does not matter which was run first.
Two equal guesses are refused before a text of blanks, and only the secant method objects to
them. -/
theorem two_runs_for_identity_and_blanks :
    let identity : ComparisonInput := { expression := "x", x0 := 1, x1 := 2 }
    let blanks : ComparisonInput := { expression := " ", x0 := 1, x1 := 1 }
    let equal := SolverError.invalidParameter "x1" "1" "Second guess must differ from the first"
    Join.secondFirst.ReturnsBoth ∧
    ((∃ a, Newton.solve identity.newtonInput = .ok a) ∧
      ∃ b, Secant.solve identity.secantInput = .ok b) ∧
    Secant.solve blanks.secantInput = .error equal ∧
    blanks.solveBy .secondFirst = .error equal := by
  intro identity blanks equal
  have hjoin : Join.secondFirst.ReturnsBoth := fun _ _ => ⟨1, 2, rfl⟩
  have hformula : identity.formula = .ok ⟨"x", .x⟩ := by
    have hvalid : identity.validate = .ok () := toOption_eq_some.1 (by decide +kernel)
    rw [ComparisonInput.formula, hvalid, ok_bind]
    exact readFormula_x
  have hcompared : ∃ c, identity.solveBy .secondFirst = .ok c := by
    rw [ComparisonInput.solveBy, hformula]
    exact ⟨_, rfl⟩
  have hrefused : blanks.solveBy .secondFirst = .error equal :=
    error?_eq_some.1 (by decide +kernel)
  have hnewton : Newton.solve blanks.newtonInput ≠ .error equal := by
    rw [Ne, ← error?_eq_some]
    decide +kernel
  refine ⟨hjoin, (comparison_is_two_runs hjoin identity).ok_iff.1 hcompared, ?_, hrefused⟩
  obtain ⟨h, -⟩ | ⟨h, -⟩ := ((comparison_is_two_runs hjoin blanks).error_iff equal).1 hrefused
  · exact absurd h hnewton
  · exact h

end RealRoots
