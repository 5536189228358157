import RealRoots.Formula
import RealRoots.Proofs.Expr.RealReading
import RealRoots.Proofs.Results

/-!
# Exact derivatives

**Theorem (`exact_slopes_are_derivatives`).** Over the real numbers the exact derivative of an
expression has the value of the derivative, wherever it has a value and the expression has one
nearby. In doubles the slope of a formula is the value of its exact derivative where there is one,
and the central difference elsewhere.

`Differentiates` lists the rules of the table. Its induction carries what the expression has near
the point: each rule for a node with parts splits that into what the parts have there.
-/

namespace RealRoots

open Filter Topology

namespace Expr

/-! ## The table -/

/-- The rules of differentiation. -/
inductive Differentiates : Expr → Expr → Prop
  | number (c : Float) : Differentiates (number c) (number 0)
  | x : Differentiates .x (number 1)
  | neg {a a' : Expr} : Differentiates a a' → Differentiates (neg a) (neg a')
  | add {a a' b b' : Expr} : Differentiates a a' → Differentiates b b' →
      Differentiates (binary .add a b) (binary .add a' b')
  | sub {a a' b b' : Expr} : Differentiates a a' → Differentiates b b' →
      Differentiates (binary .sub a b) (binary .sub a' b')
  | scale (c : Float) {g g' : Expr} : Differentiates g g' →
      Differentiates (binary .mul (number c) g) (binary .mul (number c) g')
  | scaleRight (c : Float) {g g' : Expr} : Differentiates g g' →
      Differentiates (binary .mul g (number c)) (binary .mul (number c) g')
  | divide (c : Float) {g g' : Expr} : Differentiates g g' →
      Differentiates (binary .div g (number c)) (binary .div g' (number c))
  | power (n : Float) : Differentiates (binary .pow .x (number n))
      (binary .mul (number n) (binary .pow .x (number (n - 1))))
  | exponential {base : Float} : base == eulerNumber →
      Differentiates (binary .pow (number base) .x) (binary .pow (number base) .x)
  | sin : Differentiates (call .sin .x) (call .cos .x)
  | cos : Differentiates (call .cos .x) (neg (call .sin .x))
  | exp : Differentiates (call .exp .x) (call .exp .x)
  | log : Differentiates (call .log .x) (binary .div (number 1) .x)

/-- An exact derivative is made by the rules. -/
theorem differentiates {t d : Expr} (h : t.derivative? = some d) : Differentiates t d := by
  fun_induction derivative? t generalizing d with
  | case1 c => cases h; exact .number c
  | case2 => cases h; exact .x
  | case3 a ih =>
    obtain ⟨a', ha, h⟩ := Option.bind_eq_some_iff.1 h
    cases h
    exact .neg (ih ha)
  | case4 a b iha ihb =>
    obtain ⟨a', ha, h⟩ := Option.bind_eq_some_iff.1 h
    obtain ⟨b', hb, h⟩ := Option.bind_eq_some_iff.1 h
    cases h
    exact .add (iha ha) (ihb hb)
  | case5 a b iha ihb =>
    obtain ⟨a', ha, h⟩ := Option.bind_eq_some_iff.1 h
    obtain ⟨b', hb, h⟩ := Option.bind_eq_some_iff.1 h
    cases h
    exact .sub (iha ha) (ihb hb)
  | case6 c g ih =>
    obtain ⟨g', hg, h⟩ := Option.bind_eq_some_iff.1 h
    cases h
    exact .scale c (ih hg)
  | case7 g c _ ih =>
    obtain ⟨g', hg, h⟩ := Option.bind_eq_some_iff.1 h
    cases h
    exact .scaleRight c (ih hg)
  | case8 g c ih =>
    obtain ⟨g', hg, h⟩ := Option.bind_eq_some_iff.1 h
    cases h
    exact .divide c (ih hg)
  | case9 n => cases h; exact .power n
  | case10 base hbase => cases h; exact .exponential hbase
  | case11 => cases h
  | case12 => cases h; exact .sin
  | case13 => cases h; exact .cos
  | case14 => cases h; exact .exp
  | case15 => cases h; exact .log
  | case16 => cases h

/-- No rule makes a power of the variable by itself. -/
theorem Differentiates.ne_power {t d : Expr} (h : Differentiates t d) (m : Float) :
    d ≠ .binary .pow .x (.number m) := by
  cases h <;> nofun

/-! ## Soundness -/

/-- What a computation has near a point, its first part has there. -/
theorem eventually_bind {l : Filter ℝ} {p : ℝ → Option ℝ} {q : ℝ → ℝ → Option ℝ} {F : ℝ → ℝ}
    (h : ∀ᶠ y in l, (p y >>= q y) = some (F y)) :
    ∃ G : ℝ → ℝ, (∀ᶠ y in l, p y = some (G y)) ∧ ∀ᶠ y in l, q y (G y) = some (F y) := by
  refine ⟨fun y => (p y).getD 0, h.mono fun y hy => ?_, h.mono fun y hy => ?_⟩ <;>
    obtain ⟨a, ha, hq⟩ := Option.bind_eq_some_iff.1 hy
  · simp [ha]
  · simpa [ha] using hq

/-- A function with known values near a point has the derivative of those values. -/
theorem hasDerivAt_of_some {F G : ℝ → ℝ} {v x : ℝ} (hG : HasDerivAt G v x)
    (h : ∀ᶠ y in 𝓝 x, some (G y) = some (F y)) : HasDerivAt F v x :=
  hG.congr_of_eventuallyEq (h.mono fun _ hy => (Option.some.inj hy).symm)

/-- A power of the variable has the derivative that the rule says. -/
theorem hasDerivAt_power {r p x : ℝ} {F : ℝ → ℝ} (hp : power? x (r - 1) = some p)
    (hF : ∀ᶠ y in 𝓝 x, power? y r = some (F y)) : HasDerivAt F (r * p) x := by
  obtain ⟨rfl, hx⟩ := power?_eq_some hp
  have hpower : HasDerivAt (fun y => y ^ r) (r * x ^ (r - 1)) x :=
    Real.hasDerivAt_rpow_const (hx.imp id sub_nonneg.1)
  exact hpower.congr_of_eventuallyEq (hF.mono fun y hy => (power?_eq_some hy).1)

/-- **The rules are right.** The value of the derivative is the slope of the values that the
expression has near the point. -/
theorem Differentiates.hasDerivAt {t d : Expr} (h : Differentiates t d) {x v : ℝ}
    (hv : d.realSlope? x = some v) {F : ℝ → ℝ} (hF : ∀ᶠ y in 𝓝 x, t.real? y = some (F y)) :
    HasDerivAt F v x := by
  induction h generalizing v F with
  | number c =>
    obtain rfl : 0 = v := Option.some.inj (literal?_zero.symm.trans hv)
    obtain ⟨r, hr⟩ := hF.exists
    exact hasDerivAt_of_some (hasDerivAt_const x (F r)) (hF.mono fun y hy => hr.symm.trans hy)
  | x =>
    obtain rfl : 1 = v := Option.some.inj (literal?_one.symm.trans hv)
    exact hasDerivAt_of_some (hasDerivAt_id' x) hF
  | neg _ ih =>
    obtain ⟨a', ha', hv⟩ := Option.bind_eq_some_iff.1 hv
    obtain ⟨A, hA, hF⟩ := eventually_bind hF
    cases hv
    exact hasDerivAt_of_some (ih ha' hA).neg hF
  | add _ _ iha ihb =>
    obtain ⟨a', ha', hv⟩ := Option.bind_eq_some_iff.1 hv
    obtain ⟨b', hb', hv⟩ := Option.bind_eq_some_iff.1 hv
    obtain ⟨A, hA, hF⟩ := eventually_bind hF
    obtain ⟨B, hB, hF⟩ := eventually_bind hF
    cases hv
    exact hasDerivAt_of_some ((iha ha' hA).add (ihb hb' hB)) hF
  | sub _ _ iha ihb =>
    obtain ⟨a', ha', hv⟩ := Option.bind_eq_some_iff.1 hv
    obtain ⟨b', hb', hv⟩ := Option.bind_eq_some_iff.1 hv
    obtain ⟨A, hA, hF⟩ := eventually_bind hF
    obtain ⟨B, hB, hF⟩ := eventually_bind hF
    cases hv
    exact hasDerivAt_of_some ((iha ha' hA).sub (ihb hb' hB)) hF
  | scale c hg ih =>
    rw [realSlope?_mul x hg.ne_power] at hv
    obtain ⟨r, hr, hv⟩ := Option.bind_eq_some_iff.1 hv
    obtain ⟨g', hg', hv⟩ := Option.bind_eq_some_iff.1 hv
    have hF : ∀ᶠ y in 𝓝 x, (real? y _ >>= fun g => some (r * g)) = some (F y) :=
      hF.mono fun y hy => by rwa [real?, real?, hr] at hy
    obtain ⟨G, hG, hF⟩ := eventually_bind hF
    cases hv
    exact hasDerivAt_of_some ((ih hg' hG).const_mul r) hF
  | scaleRight c hg ih =>
    rw [realSlope?_mul x hg.ne_power] at hv
    obtain ⟨r, hr, hv⟩ := Option.bind_eq_some_iff.1 hv
    obtain ⟨g', hg', hv⟩ := Option.bind_eq_some_iff.1 hv
    obtain ⟨G, hG, hF⟩ := eventually_bind hF
    have hF : ∀ᶠ y in 𝓝 x, some (r * G y) = some (F y) := hF.mono fun y hy => by
      rw [real?, hr] at hy
      rw [mul_comm]
      exact hy
    cases hv
    exact hasDerivAt_of_some ((ih hg' hG).const_mul r) hF
  | divide c hg ih =>
    obtain ⟨g', hg', hv⟩ := Option.bind_eq_some_iff.1 hv
    obtain ⟨r, hr, hv⟩ := Option.bind_eq_some_iff.1 hv
    obtain ⟨-, rfl⟩ := Operator.div_real?_eq_some.1 hv
    obtain ⟨G, hG, hF⟩ := eventually_bind hF
    refine ((ih hg' hG).div_const r).congr_of_eventuallyEq (hF.mono fun y hy => ?_)
    obtain ⟨s, hs, hy⟩ := Option.bind_eq_some_iff.1 hy
    obtain rfl : r = s := Option.some.inj (hr.symm.trans hs)
    exact (Operator.div_real?_eq_some.1 hy).2.symm
  | power n =>
    rw [realSlope?_power] at hv
    obtain ⟨r, hr, hv⟩ := Option.bind_eq_some_iff.1 hv
    obtain ⟨p, hp, hv⟩ := Option.bind_eq_some_iff.1 hv
    cases hv
    refine hasDerivAt_power hp (hF.mono fun y hy => ?_)
    rw [real?, real?, real?, hr] at hy
    exact hy
  | exponential hbase =>
    obtain ⟨e, he, hv⟩ := Option.bind_eq_some_iff.1 hv
    obtain rfl : Real.exp 1 = e := Option.some.inj ((literal?_of_beq hbase).symm.trans he)
    obtain rfl : v = Real.exp x := (power?_eq_some hv).1.trans (Real.exp_one_rpow x)
    refine (Real.hasDerivAt_exp x).congr_of_eventuallyEq (hF.mono fun y hy => ?_)
    rw [real?, real?, literal?_of_beq hbase] at hy
    exact (power?_eq_some hy).1.trans (Real.exp_one_rpow y)
  | sin =>
    cases hv
    exact hasDerivAt_of_some (Real.hasDerivAt_sin x) hF
  | cos =>
    cases hv
    exact hasDerivAt_of_some (Real.hasDerivAt_cos x) hF
  | exp =>
    cases hv
    exact hasDerivAt_of_some (Real.hasDerivAt_exp x) hF
  | log =>
    rw [realSlope?_of_ne_mul _ _ x (by decide), realSlope?, literal?_one] at hv
    obtain ⟨hx, rfl⟩ := Operator.div_real?_eq_some.1 hv
    rw [one_div]
    refine (Real.hasDerivAt_log hx).congr_of_eventuallyEq (hF.mono fun y hy => ?_)
    exact (Function.log_real?_eq_some.1 hy).2.symm

end Expr

/-! ## Slopes of a formula -/

namespace Formula

variable {f : Formula} {options : DerivativeOptions} {x : Float}

theorem exactSlope?_eq_some {v : Float} :
    f.exactSlope? x = some v ↔ ∃ d, f.derivative? = some d ∧ d.eval x = .ok v := by
  rw [exactSlope?, Option.bind_eq_bind, Option.bind_eq_some_iff]
  simp only [toOption_eq_some]

/-- An exact derivative with a value is the slope. -/
theorem slope_of_exact {d : Expr} {v : Float} (hmethod : options.method = .shortcut)
    (hd : f.derivative? = some d) (hv : d.eval x = .ok v) : f.slope options x = .ok v := by
  rw [slope, if_pos hmethod, exactSlope?_eq_some.2 ⟨d, hd, hv⟩]

/-- Without one the central difference is, value or error. -/
theorem slope_of_not_exact (h : ∀ d v, f.derivative? = some d → d.eval x ≠ .ok v) :
    f.slope options x = f.tree.centralDifference options.step x := by
  have hnone : f.exactSlope? x = none := by
    refine Option.eq_none_iff_forall_ne_some.2 fun v hv => ?_
    obtain ⟨d, hd, hv⟩ := exactSlope?_eq_some.1 hv
    exact h d v hd hv
  rw [slope, hnone, ite_self]

/-- A slope only fails as the central difference does. -/
theorem centralDifference_of_slope_eq_error {e : EvalError} (h : f.slope options x = .error e) :
    f.tree.centralDifference options.step x = .error e := by
  unfold slope at h
  split at h
  · cases h
  · exact h

end Formula

/-- **Exact slopes are derivatives, and central differences stand in for them.** -/
theorem exact_slopes_are_derivatives :
    (∀ (t d : Expr) (x v : ℝ) (F : ℝ → ℝ), t.derivative? = some d → d.realSlope? x = some v →
      (∀ᶠ y in 𝓝 x, t.real? y = some (F y)) → HasDerivAt F v x) ∧
    ∀ (f : Formula) (options : DerivativeOptions) (x : Float), options.method = .shortcut →
      (∀ d v, f.derivative? = some d → d.eval x = .ok v → f.slope options x = .ok v) ∧
      ((∀ d v, f.derivative? = some d → d.eval x ≠ .ok v) →
        f.slope options x = f.tree.centralDifference options.step x) ∧
      ∀ e, f.slope options x = .error e →
        f.tree.centralDifference options.step x = .error e :=
  ⟨fun _ _ _ _ _ h hv hF => (Expr.differentiates h).hasDerivAt hv hF,
    fun _ _ _ hmethod => ⟨fun _ _ hd hv => Formula.slope_of_exact hmethod hd hv,
      Formula.slope_of_not_exact, fun _ => Formula.centralDifference_of_slope_eq_error⟩⟩

/-- The slope of `2 * x ^ 3 - log(x)` at `1` is `5`, over the real numbers and in doubles. -/
theorem slope_of_cube_and_logarithm :
    let t : Expr := .binary .sub (.binary .mul (.number 2) (.binary .pow .x (.number 3)))
      (.call .log .x)
    let d : Expr := .binary .sub
      (.binary .mul (.number 2) (.binary .mul (.number 3) (.binary .pow .x (.number 2))))
      (.binary .div (.number 1) .x)
    let F : ℝ → ℝ := fun y => 2 * y ^ 3 - Real.log y
    t.derivative? = some d ∧ d.realSlope? 1 = some 5 ∧
      (∀ᶠ y in 𝓝 1, t.real? y = some (F y)) ∧ HasDerivAt F 5 1 ∧
      d.eval 1 = .ok 5 ∧ Formula.slope ⟨"2*x^3 - log(x)", t⟩ .shortcut 1 = .ok 5 := by
  intro t d F
  have htwo : literal? 2 = some 2 := by
    rw [literal?_of_shape ⟨2 ^ 52, -51⟩ (by decide +kernel) (by decide +kernel)]
    norm_num [Dyadic.real]
  have hthree : literal? 3 = some 3 := by
    rw [literal?_of_shape ⟨3 * 2 ^ 51, -51⟩ (by decide +kernel) (by decide +kernel)]
    norm_num [Dyadic.real]
  have hd : t.derivative? = some d := by decide +kernel
  have hpower : (Expr.binary .mul (.number 3) (.binary .pow .x (.number 2))).realSlope? 1 =
      some 3 := by
    rw [Expr.realSlope?, Expr.exponent?, if_pos (by decide +kernel), hthree]
    norm_num [power?]
  have hv : d.realSlope? 1 = some 5 := by
    rw [Expr.realSlope?_of_ne_mul _ _ 1 (by decide), Expr.realSlope?_mul 1 fun _ h =>
      absurd (Expr.binary.inj h).1 (by decide), hpower, htwo,
      Expr.realSlope?_of_ne_mul _ _ 1 (by decide), Expr.realSlope?, Expr.realSlope?, literal?_one]
    norm_num [Operator.real?]
  have hF : ∀ᶠ y in 𝓝 1, t.real? y = some (F y) := by
    filter_upwards [lt_mem_nhds one_pos] with y hy
    have hcube : (Expr.binary .pow .x (.number 3)).real? y = some (y ^ 3) := by
      rw [Expr.real?, Expr.real?, Expr.real?, hthree]
      norm_num [Operator.real?, power?]
    change (do
      Operator.sub.real?
        (← (do Operator.mul.real? (← literal? 2) (← (Expr.binary .pow .x (.number 3)).real? y)))
        (← Function.log.real? y)) = _
    rw [htwo, hcube, Function.log_real?_eq_some.2 ⟨hy, rfl⟩]
    rfl
  have heval : d.eval 1 = .ok 5 := by decide +kernel
  exact ⟨hd, hv, hF, exact_slopes_are_derivatives.1 t d 1 5 F hd hv hF, heval,
    (exact_slopes_are_derivatives.2 ⟨_, t⟩ .shortcut 1 rfl).1 d 5 hd heval⟩

end RealRoots
