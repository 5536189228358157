import RealRoots.Formula
import RealRoots.Proofs.Results

/-!
# Where evaluation fails

**Theorem (`Expr.x_of_eval_eq_error`).** An evaluation that fails says at which `x`, which is the
one that it was asked for. A derivative may also fail at a point of its central difference.
-/

namespace RealRoots

theorem x_of_finite_eq_error {x v : Float} {e : EvalError} (h : finite x v = .error e) :
    e.x = x := by
  unfold finite at h
  split at h
  · cases h
  · cases h
    rfl

theorem Function.x_of_apply_eq_error {function : Function} {x a : Float} {e : EvalError}
    (h : function.apply x a = .error e) : e.x = x := by
  unfold apply at h
  split at h
  · cases h
  · cases h
    rfl

theorem x_of_power_eq_error {x a b : Float} {e : EvalError} (h : power x a b = .error e) :
    e.x = x := by
  unfold power at h
  split at h
  · split at h
    · cases h
      rfl
    · cases h
  · split at h
    · cases h
      rfl
    · cases h

theorem Operator.x_of_apply_eq_error {op : Operator} {x a b : Float} {e : EvalError}
    (h : op.apply x a b = .error e) : e.x = x := by
  cases op with
  | add | sub | mul => cases h
  | div =>
    change (if b == 0 then _ else _) = _ at h
    split at h
    · cases h
      rfl
    · cases h
  | pow => exact x_of_power_eq_error h

namespace Expr

/-- **An error carries the `x` of the evaluation.** -/
theorem x_of_eval_eq_error {f : Expr} {x : Float} {e : EvalError} (h : f.eval x = .error e) :
    e.x = x := by
  induction f with
  | number v => exact x_of_finite_eq_error h
  | x => exact x_of_finite_eq_error h
  | neg operand ih =>
    obtain h | ⟨a, -, h⟩ := bind_eq_error.1 h
    · exact ih h
    · exact x_of_finite_eq_error h
  | binary op left right ihLeft ihRight =>
    obtain h | ⟨a, -, h⟩ := bind_eq_error.1 h
    · exact ihLeft h
    · obtain h | ⟨b, -, h⟩ := bind_eq_error.1 h
      · exact ihRight h
      · obtain h | ⟨c, -, h⟩ := bind_eq_error.1 h
        · exact Operator.x_of_apply_eq_error h
        · exact x_of_finite_eq_error h
  | call function argument ih =>
    obtain h | ⟨a, -, h⟩ := bind_eq_error.1 h
    · exact ih h
    · obtain h | ⟨b, -, h⟩ := bind_eq_error.1 h
      · exact Function.x_of_apply_eq_error h
      · exact x_of_finite_eq_error h

theorem centralDifference_eq_error {f : Expr} {h x : Float} {e : EvalError}
    (hf : f.centralDifference h x = .error e) :
    f.eval (x + h) = .error e ∨ f.eval (x - h) = .error e ∨ e.x = x := by
  obtain hf | ⟨forward, -, hf⟩ := bind_eq_error.1 hf
  · exact .inl hf
  · obtain hf | ⟨backward, -, hf⟩ := bind_eq_error.1 hf
    · exact .inr (.inl hf)
    · exact .inr (.inr (x_of_finite_eq_error hf))

end Expr

namespace Formula

theorem x_of_eval_eq_error {f : Formula} {x : Float} {e : EvalError} (h : f.eval x = .error e) :
    e.x = x :=
  Expr.x_of_eval_eq_error h

/-- A derivative fails because the formula does at a point of its central difference, or else where
it was asked for. -/
theorem slope_eq_error {f : Formula} {options : DerivativeOptions} {x : Float} {e : EvalError}
    (h : f.slope options x = .error e) :
    f.eval (x + options.step) = .error e ∨ f.eval (x - options.step) = .error e ∨ e.x = x := by
  unfold slope at h
  split at h
  · cases h
  · exact Expr.centralDifference_eq_error h

end Formula

end RealRoots
