import RealRoots.Proofs.Expr.Strictness

/-!
# What an expression reads

An expression that does not read `x` has one value, or fails for one reason wherever it is
evaluated, and only the `x` that the error carries differs (`Expr.eval_eq_mapError`). One that reads
`x` has no value where `x` is not finite, whatever it does with it
(`Expr.eval_ne_ok_of_dependsOnX`).

Both are inductions over the tree: the first with one lemma for each operation, all saying that a
computation at `y` is the one at `x` with its error moved to `y`.

**Theorem (`Expr.dependsOnX_sound`).** Together they say what `dependsOnX` is good for. The check is
not exact: `0 * x` reads `x`, though at a finite `x` its value is a zero.
-/

namespace RealRoots

/-- The same error, as it arises at another `x`. -/
def EvalError.at (y : Float) : EvalError → EvalError
  | divisionByZero _ => divisionByZero y
  | domain function argument _ => domain function argument y
  | nonFinite _ => nonFinite y

theorem EvalError.at_x (e : EvalError) : e.at e.x = e := by
  cases e <;> rfl

/-! ## One operation at two points -/

variable (x y : Float)

theorem finite_mapError (v : Float) : finite y v = (finite x v).mapError (·.at y) := by
  unfold finite
  split <;> rfl

theorem Function.apply_mapError (function : Function) (a : Float) :
    function.apply y a = (function.apply x a).mapError (·.at y) := by
  unfold apply
  split <;> rfl

theorem power_mapError (a b : Float) : power y a b = (power x a b).mapError (·.at y) := by
  unfold power
  split <;> split <;> rfl

theorem Operator.apply_mapError (op : Operator) (a b : Float) :
    op.apply y a b = (op.apply x a b).mapError (·.at y) := by
  cases op with
  | add | sub | mul => rfl
  | div =>
    unfold apply
    dsimp only
    split <;> rfl
  | pow => exact power_mapError x y a b

namespace Expr

variable {t : Expr}

/-- **What is not read does not matter.** -/
theorem eval_eq_mapError (h : t.dependsOnX = false) :
    t.eval y = (t.eval x).mapError (·.at y) := by
  induction t with
  | number value => exact finite_mapError x y value
  | x => cases h
  | neg operand ih =>
    rw [eval, eval, mapError_bind, ih h]
    simp only [finite_mapError x y]
  | binary op left right ihLeft ihRight =>
    obtain ⟨hleft, hright⟩ := Bool.or_eq_false_iff.1 h
    rw [eval, eval, mapError_bind, ihLeft hleft]
    simp only [mapError_bind, ihRight hright, Operator.apply_mapError x y, finite_mapError x y]
  | call function argument ih =>
    rw [eval, eval, mapError_bind, ih h]
    simp only [mapError_bind, Function.apply_mapError x y, finite_mapError x y]

variable {x y}

theorem eval_eq_ok_of_not_dependsOnX (h : t.dependsOnX = false) {v : Float}
    (hv : t.eval x = .ok v) : t.eval y = .ok v := by
  rw [eval_eq_mapError x y h, hv]
  rfl

theorem mem_postorder_of_dependsOnX (h : t.dependsOnX = true) : Expr.x ∈ t.postorder := by
  induction t with
  | number value => cases h
  | x => exact List.mem_singleton_self _
  | neg operand ih | call function argument ih => exact List.mem_append_left _ (ih h)
  | binary op left right ihLeft ihRight =>
    obtain h | h := Bool.or_eq_true_iff.1 h
    · exact List.mem_append_left _ (List.mem_append_left _ (ihLeft h))
    · exact List.mem_append_left _ (List.mem_append_right _ (ihRight h))

/-- **What is read has to be finite.** -/
theorem eval_ne_ok_of_dependsOnX (h : t.dependsOnX = true) (hx : ¬ x.isFinite) (v : Float) :
    t.eval x ≠ .ok v := by
  intro hv
  obtain ⟨w, hw⟩ := exists_eval_of_mem hv (mem_postorder_of_dependsOnX h)
  obtain ⟨-, hfinite⟩ := finite_eq_ok hw
  exact hx hfinite

/-- An error of an evaluation arises at its `x`. -/
theorem at_of_eval_eq_error {e : EvalError} (h : t.eval x = .error e) : e.at x = e := by
  rw [← x_of_eval_eq_error h, EvalError.at_x]

/-- **The check is sound.** Where it says that `x` is not read, the evaluations at any two doubles
have the same value, or fail with the same error, each at its own `x`. Where it says that `x` is
read, the evaluation fails at each `x` that is not finite. -/
theorem dependsOnX_sound (t : Expr) :
    (t.dependsOnX = false → ∀ x y,
      (∃ v, t.eval x = .ok v ∧ t.eval y = .ok v) ∨
        ∃ e : EvalError, t.eval x = .error (e.at x) ∧ t.eval y = .error (e.at y)) ∧
    (t.dependsOnX = true → ∀ x, ¬ x.isFinite → ∃ e : EvalError, t.eval x = .error (e.at x)) := by
  constructor
  · intro h x y
    cases hx : t.eval x with
    | ok v => exact .inl ⟨v, rfl, eval_eq_ok_of_not_dependsOnX h hx⟩
    | error e =>
      refine .inr ⟨e, by rw [at_of_eval_eq_error hx], ?_⟩
      rw [eval_eq_mapError x y h, hx]
      rfl
  · intro h x hinfinite
    cases hx : t.eval x with
    | ok v => exact absurd hx (eval_ne_ok_of_dependsOnX h hinfinite v)
    | error e => exact ⟨e, by rw [at_of_eval_eq_error hx]⟩

/-- A zero times a power with exponent zero reads `x`, so it has no value at a NaN. The root of `-1`
fails alike at a NaN and at an infinity. -/
theorem masked_variable_and_constant_root :
    let nan : Float := 0 / 0
    let infinity : Float := 1 / 0
    let masked : Expr := binary .mul (number 0) (binary .pow .x (number 0))
    let root : Expr := call .sqrt (neg (number 1))
    (masked.dependsOnX = true ∧ ¬ nan.isFinite ∧
      ∃ e : EvalError, masked.eval nan = .error (e.at nan)) ∧
    root.dependsOnX = false ∧
      ((∃ v, root.eval nan = .ok v ∧ root.eval infinity = .ok v) ∨
        ∃ e : EvalError, root.eval nan = .error (e.at nan) ∧
          root.eval infinity = .error (e.at infinity)) := by
  intro nan infinity masked root
  have hnan : ¬ nan.isFinite := by decide +kernel
  exact ⟨⟨rfl, hnan, (dependsOnX_sound masked).2 rfl nan hnan⟩,
    rfl, (dependsOnX_sound root).1 rfl nan infinity⟩

end Expr

end RealRoots
