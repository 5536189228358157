import RealRoots.Proofs.Comparison.Separate
import RealRoots.Proofs.Expr.Differentiation
import RealRoots.Proofs.Expr.Independence
import RealRoots.Proofs.Number.Zeros
import RealRoots.Proofs.Printing.Reread

/-!
# Formulas that do not read `x`

**Theorem (`constant_has_no_root`).** On a formula that does not read `x`, no run finds a root, be
it the constant zero. Newton-Raphson stops at the first guess for its derivative, which is a zero,
and the secant method between its guesses for the difference of their function values, or for its
budget if that is spent by the guesses. So a comparison has no winner.

Such a formula has one value, at the points of a central difference as well, which may be infinite.
All that is used of the arithmetic is what keeps a zero one: the difference of a value and itself,
over a width that is no zero, and the exact derivative, whose sums, multiples and quotients of zeros
are zeros (`Expr.Differentiates.isZeroAt`).
-/

namespace RealRoots

/-! ## Derivatives of constants -/

namespace Expr

variable {op : Operator} {left right : Expr} {x a b v z : Float}

theorem operands_of_eval (h : (binary op left right).eval x = .ok v) : ∃ a b w,
    left.eval x = .ok a ∧ right.eval x = .ok b ∧ op.apply x a b = .ok w := by
  obtain ⟨a, ha, h⟩ := bind_eq_ok.1 h
  obtain ⟨b, hb, h⟩ := bind_eq_ok.1 h
  obtain ⟨w, hw, -⟩ := bind_eq_ok.1 h
  exact ⟨a, b, w, ha, hb, hw⟩

/-- A tree has a zero as its value. -/
def IsZeroAt (t : Expr) (x : Float) : Prop :=
  ∃ z, t.eval x = .ok z ∧ IsZero z

theorem isZeroAt_binary (ha : left.eval x = .ok a) (hb : right.eval x = .ok b)
    (h : op.apply x a b = .ok z) (hz : IsZero z) : (binary op left right).IsZeroAt x := by
  refine ⟨z, ?_, hz⟩
  rw [eval, ha, ok_bind, hb, ok_bind, h, ok_bind]
  exact finite_of_isFinite hz.isFinite

/-- **The exact derivative of a constant is a zero** wherever the constant has a value. -/
theorem Differentiates.isZeroAt {t d : Expr} (h : Differentiates t d)
    (hconstant : t.dependsOnX = false) (hv : t.eval x = .ok v) : d.IsZeroAt x := by
  induction h generalizing v with
  | number c => exact ⟨0, rfl, isZero_zero⟩
  | neg _ ih =>
    obtain ⟨a, ha, -⟩ := bind_eq_ok.1 hv
    obtain ⟨z, hz, hzero⟩ := ih hconstant ha
    refine ⟨-z, ?_, hzero.neg⟩
    rw [eval, hz, ok_bind]
    exact finite_of_isFinite hzero.neg.isFinite
  | add _ _ ihLeft ihRight =>
    obtain ⟨hleft, hright⟩ := Bool.or_eq_false_iff.1 hconstant
    obtain ⟨a, b, -, ha, hb, -⟩ := operands_of_eval hv
    obtain ⟨z, hz, hzero⟩ := ihLeft hleft ha
    obtain ⟨w, hw, hzero'⟩ := ihRight hright hb
    exact isZeroAt_binary hz hw rfl (hzero.add hzero')
  | sub _ _ ihLeft ihRight =>
    obtain ⟨hleft, hright⟩ := Bool.or_eq_false_iff.1 hconstant
    obtain ⟨a, b, -, ha, hb, -⟩ := operands_of_eval hv
    obtain ⟨z, hz, hzero⟩ := ihLeft hleft ha
    obtain ⟨w, hw, hzero'⟩ := ihRight hright hb
    exact isZeroAt_binary hz hw rfl (hzero.sub hzero')
  | scale c _ ih =>
    obtain ⟨a, b, -, ha, hb, -⟩ := operands_of_eval hv
    obtain ⟨z, hz, hzero⟩ := ih hconstant hb
    exact isZeroAt_binary ha hz rfl (.mul (eval_isFinite ha) hzero)
  | scaleRight c _ ih =>
    obtain ⟨hg, hc⟩ := Bool.or_eq_false_iff.1 hconstant
    obtain ⟨a, b, -, ha, hb, -⟩ := operands_of_eval hv
    obtain ⟨z, hz, hzero⟩ := ih hg ha
    exact isZeroAt_binary hb hz rfl (.mul (eval_isFinite hb) hzero)
  | divide c _ ih =>
    obtain ⟨hg, hc⟩ := Bool.or_eq_false_iff.1 hconstant
    obtain ⟨a, b, w, ha, hb, hw⟩ := operands_of_eval hv
    obtain ⟨z, hz, hzero⟩ := ih hg ha
    -- The constant has a value, so its divisor is no zero.
    by_cases hdivisor : b == 0
    · rw [Operator.apply, if_pos hdivisor] at hw
      cases hw
    · refine isZeroAt_binary hz hb (if_neg hdivisor) (hzero.div ?_ ?_)
      · rwa [isZero_iff]
      · exact not_isNaN_of_isFinite (eval_isFinite hb)
  | x | power | exponential | sin | cos | exp | log => cases hconstant

/-- The central difference of a constant is a zero, also where its points overflow. -/
theorem centralDifference_of_constant {t : Expr} {h : Float} (hv : ∀ y, t.eval y = .ok v)
    (hfinite : h.isFinite) (hpos : 0 < h) : ∃ z, t.centralDifference h x = .ok z ∧ IsZero z := by
  obtain ⟨hwidth, hnumber⟩ := two_mul_pos hfinite hpos
  have hzero := (isZero_sub_self (eval_isFinite (hv x))).div hwidth hnumber
  refine ⟨_, ?_, hzero⟩
  rw [centralDifference, hv, ok_bind, hv, ok_bind]
  exact finite_of_isFinite hzero.isFinite

end Expr

/-! ## Runs on constants -/

/-- A formula with one value everywhere. -/
structure Formula.IsConstant (f : Formula) (value : Float) : Prop where
  not_dependsOnX : f.tree.dependsOnX = false
  eval_eq : ∀ x, f.eval x = .ok value

theorem Formula.exists_isConstant {text : String} {f : Formula} (hread : read text = .ok f)
    (hconstant : f.tree.dependsOnX = false) : ∃ value, f.IsConstant value := by
  obtain ⟨g, -, hread⟩ := bind_eq_ok.1 hread
  obtain ⟨_, hcheck, hread⟩ := bind_eq_ok.1 hread
  obtain rfl : g = f := Except.ok.inj hread
  obtain ⟨x, value, hx⟩ : ∃ x value, g.eval x = .ok value := by
    by_contra hnone
    obtain ⟨e, he⟩ := check_eq_error.2 fun x _ => by
      cases hx : g.eval x with
      | ok value => exact absurd ⟨x, value, hx⟩ hnone
      | error e => exact ⟨e, rfl⟩
    rw [hcheck] at he
    cases he
  exact ⟨value, hconstant, fun y => Expr.eval_eq_ok_of_not_dependsOnX hconstant hx⟩

namespace Formula.IsConstant

variable {f : Formula} {value : Float} (hf : f.IsConstant value) {options : DerivativeOptions}
include hf

theorem slope_eq (hoptions : isPositive options.step) (x : Float) :
    ∃ d, f.slope options x = .ok d ∧ IsZero d := by
  obtain ⟨hfinite, hpos⟩ := isPositive_iff.1 hoptions
  unfold slope
  split
  · rename_i d hd
    refine ⟨d, rfl, ?_⟩
    split at hd
    · obtain ⟨tree, htree, htreeValue⟩ := exactSlope?_eq_some.1 hd
      obtain ⟨z, hz, hzero⟩ := (Expr.differentiates htree).isZeroAt hf.not_dependsOnX (hf.eval_eq x)
      rwa [Except.ok.inj (htreeValue.symm.trans hz)]
    · cases hd
  · exact Expr.centralDifference_of_constant hf.eval_eq hfinite hpos

end Formula.IsConstant

/-- The result of a run that failed. -/
structure RootResult.FailsWith (r : RootResult) (e : SolverError) (history : List Iteration)
    (total : Nat) : Prop where
  converged : r.converged = false
  root : r.root = none
  failure : r.failure = some e
  iterations : r.iterations = history
  totalIterations : r.totalIterations = total

theorem Run.failsWith_toResult (history : List Iteration) (e : SolverError) (total : Nat)
    (method : Method) (f : Formula) (config : SolverConfig) :
    (Run.toResult ⟨history, .failed e, total⟩ method f config).FailsWith e history total :=
  ⟨rfl, rfl, rfl, rfl, rfl⟩

theorem abs_lt_singularityThreshold {d : Float} (h : IsZero d) : d.abs < singularityThreshold := by
  rw [h.abs]
  decide +kernel

namespace Formula.IsConstant

variable {f : Formula} {value : Float} (hf : f.IsConstant value)
include hf

theorem newton_run {input : NewtonInput} (h : input.validate = .ok ()) : ∃ d, d == 0 ∧
    (Newton.run f input).FailsWith (.derivativeNearZero input.x0 d) [] 0 := by
  obtain ⟨-, ⟨-, hbudget⟩, hstep⟩ := NewtonInput.validate_eq_ok.1 h
  obtain ⟨d, hd, hzero⟩ := hf.slope_eq hstep input.x0
  obtain ⟨budget, hbudget⟩ := Nat.exists_eq_succ_of_ne_zero hbudget
  have hpass : (Newton.scheme f input.derivative).advance f input.config.stoppingRule 0
      ⟨input.x0, value⟩ = .error (.derivativeNearZero input.x0 d) := by
    refine Scheme.advance_eq_error.2 (.inr ⟨d, ?_, .inl ⟨abs_lt_singularityThreshold hzero, rfl⟩⟩)
    exact mapError_eq_ok.2 hd
  have hrun : (Newton.scheme f input.derivative).iterate f input.config .silent
      input.config.maxIterations 0 ⟨input.x0, value⟩ () =
        (.failing (.derivativeNearZero input.x0 d) 0, ()) := by
    rw [hbudget]
    exact Scheme.iterate_breaks input.config rfl hpass
  refine ⟨d, isZero_iff.1 hzero, ?_⟩
  rw [Newton.run, Newton.runWith_of_ok input (hf.eval_eq input.x0) hrun, Newton.finish_failing]
  exact Run.failsWith_toResult ..

/-- The secant method gives up before its first step, for the budget if the guesses have spent
it. -/
theorem secant_run {input : SecantInput} (h : input.validate = .ok ()) : ∃ d, d == 0 ∧
    (Secant.run f input).FailsWith
      (if input.config.maxIterations = 1 then .maxIterationsReached 1
        else .nearZeroDenominator input.x0 input.x1 d)
      [Secant.firstSeed ⟨input.x0, value⟩, Secant.secondSeed input.config.stoppingRule
        ⟨input.x0, value⟩ ⟨input.x1, value⟩] 1 := by
  obtain ⟨-, -, -, -, hbudget⟩ := SecantInput.validate_eq_ok.1 h
  have hzero := isZero_sub_self (eval_isFinite (hf.eval_eq input.x0))
  refine ⟨value - value, isZero_iff.1 hzero, ?_⟩
  let s : Secant.Pair := ⟨⟨input.x0, value⟩, ⟨input.x1, value⟩⟩
  have hrun : Secant.scheme.iterate f input.config .silent (input.config.maxIterations - 1) 1 s () =
      (.failing (if input.config.maxIterations = 1 then .maxIterationsReached 1
        else .nearZeroDenominator input.x0 input.x1 (value - value)) 1, ()) := by
    by_cases hone : input.config.maxIterations = 1
    · rw [if_pos hone, hone, Nat.sub_self, Scheme.iterate, hone]
    · obtain ⟨budget, hbudget⟩ : ∃ budget, input.config.maxIterations - 1 = budget + 1 :=
        ⟨input.config.maxIterations - 2, by omega⟩
      have hpass : Secant.scheme.advance f input.config.stoppingRule 1 s =
          .error (.nearZeroDenominator input.x0 input.x1 (value - value)) :=
        Scheme.advance_eq_error.2
          (.inr ⟨_, rfl, .inl ⟨abs_lt_singularityThreshold hzero, rfl⟩⟩)
      rw [if_neg hone, hbudget]
      exact Scheme.iterate_breaks input.config rfl hpass
  rw [Secant.run, Secant.runWith_of_ok input (hf.eval_eq input.x0) (hf.eval_eq input.x1) hrun]
  exact Run.failsWith_toResult ..

end Formula.IsConstant

/-! ## Both methods -/

/-- Nobody wins a comparison, by whatever it is judged. -/
def Comparison.HasNoWinner (c : Comparison) : Prop :=
  c.winner = .neither ∧ c.winnerByIterations = .neither ∧ c.winnerByAccuracy = .neither ∧
    c.winnerByRate = .neither

theorem Comparison.hasNoWinner_judge {a b : RootResult} (ha : a.converged = false)
    (hb : b.converged = false) : (judge (.ofResult a) (.ofResult b)).HasNoWinner := by
  simp [HasNoWinner, judge, NamedResult.ofResult, byIterations, byAccuracy, byRate, amongConverged,
    Verdict.breakTie, ha, hb]

/-- **A formula that does not read `x` has no root**, whatever finds it. -/
theorem constant_has_no_root (text : String) (f : Formula) (hread : Formula.read text = .ok f)
    (hconstant : f.tree.dependsOnX = false) : ∃ value, (∀ x, f.eval x = .ok value) ∧
    (∀ input : NewtonInput, input.expression = text → input.validate = .ok () →
      ∃ r d, Newton.solve input = .ok r ∧ d == 0 ∧
        r.FailsWith (.derivativeNearZero input.x0 d) [] 0) ∧
    (∀ input : SecantInput, input.expression = text → input.validate = .ok () →
      ∃ r d, Secant.solve input = .ok r ∧ d == 0 ∧
        r.FailsWith
          (if input.config.maxIterations = 1 then .maxIterationsReached 1
            else .nearZeroDenominator input.x0 input.x1 d)
          [Secant.firstSeed ⟨input.x0, value⟩, Secant.secondSeed input.config.stoppingRule
            ⟨input.x0, value⟩ ⟨input.x1, value⟩] 1) ∧
    ∀ input : ComparisonInput, input.expression = text → input.validate = .ok () →
      ∃ c, input.solve = .ok c ∧ c.HasNoWinner := by
  obtain ⟨value, hf⟩ := Formula.exists_isConstant hread hconstant
  have hformula : readFormula text = .ok f := mapError_eq_ok.2 hread
  refine ⟨value, hf.eval_eq, ?_, ?_, ?_⟩
  · rintro input rfl hvalid
    obtain ⟨d, hd, hfails⟩ := hf.newton_run hvalid
    refine ⟨_, d, ?_, hd, hfails⟩
    rw [Newton.solve_eq, start, ← NewtonInput.validate_eq, hvalid, ok_bind, hformula, ok_bind]
  · rintro input rfl hvalid
    obtain ⟨d, hd, hfails⟩ := hf.secant_run hvalid
    refine ⟨_, d, ?_, hd, hfails⟩
    rw [Secant.solve_eq, start, ← SecantInput.validate_eq, hvalid, ok_bind, hformula, ok_bind]
  · rintro input rfl hvalid
    obtain ⟨hnewton, hsecant⟩ := both_eq_ok.1 hvalid
    obtain ⟨_, -, hfirst⟩ := hf.newton_run hnewton
    obtain ⟨_, -, hsecond⟩ := hf.secant_run hsecant
    refine ⟨_, ?_, Comparison.hasNoWinner_judge hfirst.converged hsecond.converged⟩
    rw [ComparisonInput.solve, ComparisonInput.formula, hvalid, ok_bind, hformula, ok_bind]

theorem read_zero : Formula.read "0" = .ok ⟨"0", .number 0⟩ := by
  have htext : (Expr.number 0).text = "0" := by decide +kernel
  have hunsigned : (Expr.number 0).NumbersUnsigned := ⟨⟨0, 0⟩, by decide +kernel⟩
  have hparse : parse "0" = .ok (.number 0) :=
    htext ▸ Expr.parse_text_eq (e := .number 0) (by decide) hunsigned
  have htrim : Text.trim "0" = "0" := by decide +kernel
  have hcheck : Formula.check ⟨"0", .number 0⟩ = .ok () := toOption_eq_some.1 (by decide +kernel)
  rw [Formula.read, Formula.parse, hparse, ok_bind, ok_bind, htrim, hcheck, ok_bind]

/-- No method finds that zero is zero. -/
theorem zero_has_no_root :
    let newton : NewtonInput := { expression := "0", x0 := 1 }
    let secant : SecantInput := { expression := "0", x0 := 1, x1 := 2 }
    let comparison : ComparisonInput := { expression := "0", x0 := 1, x1 := 2 }
    (∃ r d, Newton.solve newton = .ok r ∧ d == 0 ∧
      r.FailsWith (.derivativeNearZero 1 d) [] 0) ∧
    (∃ r d, Secant.solve secant = .ok r ∧ d == 0 ∧ r.failure = some (.nearZeroDenominator 1 2 d) ∧
      r.iterations.length = 2) ∧
    ∃ c, comparison.solve = .ok c ∧ c.HasNoWinner := by
  intro newton secant comparison
  obtain ⟨value, -, hnewton, hsecant, hcomparison⟩ :=
    constant_has_no_root "0" ⟨"0", .number 0⟩ read_zero rfl
  refine ⟨hnewton newton rfl (NewtonInput.validate_eq_ok.2 (by decide +kernel)), ?_,
    hcomparison comparison rfl ?_⟩
  · obtain ⟨r, d, hr, hd, hfails⟩ :=
      hsecant secant rfl (SecantInput.validate_eq_ok.2 (by decide +kernel))
    exact ⟨r, d, hr, hd, hfails.failure, by rw [hfails.iterations]; rfl⟩
  · exact both_eq_ok.2 ⟨NewtonInput.validate_eq_ok.2 (by decide +kernel),
      SecantInput.validate_eq_ok.2 (by decide +kernel)⟩

end RealRoots
