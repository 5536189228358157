import RealRoots.Expr.Basic
import RealRoots.Expr.Error
import RealRoots.Number.Power

/-!
# Evaluation

`Expr.eval` gives an expression its value at `x`. Every node has to have a finite value, whether the
whole needs it or not, so the first node in left-to-right post-order that has none decides the
error.

* `finite`: a value, or the error that it is not finite.
* `Function.apply`, `power`, `Operator.apply`: one node.
* `eval_isFinite`: a value is always finite.
-/

namespace RealRoots

/-- A value at `x`, which has to be finite. -/
def finite (x value : Float) : Except EvalError Float :=
  if value.isFinite then .ok value else .error (.nonFinite x)

theorem finite_eq_ok {x v w : Float} (h : finite x v = .ok w) : w = v ∧ v.isFinite := by
  unfold finite at h
  split at h
  · exact ⟨(Except.ok.inj h).symm, by assumption⟩
  · exact absurd h (by simp)

namespace Function

/-- The arguments at which the function has a real value. -/
def accepts : Function → Float → Bool
  | sqrt, a => 0 ≤ a
  | log, a => 0 < a
  | asin, a | acos, a => -1 ≤ a && a ≤ 1
  | _, _ => true

/-- The value on an argument that is accepted. -/
def value : Function → Float → Float
  | sin => Float.sin
  | cos => Float.cos
  | tan => Float.tan
  | asin => Float.asin
  | acos => Float.acos
  | atan => Float.atan
  | sinh => Float.sinh
  | cosh => Float.cosh
  | tanh => Float.tanh
  | sqrt => Float.sqrt
  | log => Float.log
  | exp => Float.exp
  | abs => Float.abs

/-- The function at an argument that was computed at `x`. -/
def apply (f : Function) (x argument : Float) : Except EvalError Float :=
  if f.accepts argument then .ok (f.value argument) else .error (.domain f.name argument x)

end Function

/-- The largest exponent, either way, of a power by repeated multiplication. -/
def maxPower : Nat := 2147483647

/-- The exponent of a power by repeated multiplication, if `exponent` is one. -/
def smallPower? (exponent : Float) : Option Int :=
  (whole? exponent).filter fun n => n.natAbs ≤ maxPower

/-- `base ^ exponent`, computed at `x`. A negative base has no power that is not a small integer. -/
def power (x base exponent : Float) : Except EvalError Float :=
  match smallPower? exponent with
  | some n => if base == 0 && n < 0 then .error (.divisionByZero x) else .ok (powInt base n)
  | none => if base < 0 then .error (.domain "^" base x) else .ok (base.pow exponent)

/-- An operation on two values computed at `x`. -/
def Operator.apply (op : Operator) (x a b : Float) : Except EvalError Float :=
  match op with
  | add => .ok (a + b)
  | sub => .ok (a - b)
  | mul => .ok (a * b)
  | div => if b == 0 then .error (.divisionByZero x) else .ok (a / b)
  | pow => power x a b

namespace Expr

/-- The value of an expression at `x`. -/
def eval (x : Float) : Expr → Except EvalError Float
  | number value => finite x value
  | .x => finite x x
  | neg operand => do finite x (-(← operand.eval x))
  | binary op left right => do
    let a ← left.eval x
    let b ← right.eval x
    finite x (← op.apply x a b)
  | call function argument => do finite x (← function.apply x (← argument.eval x))

/-- **A value is finite.** -/
theorem eval_isFinite {e : Expr} {x v : Float} (h : e.eval x = .ok v) : v.isFinite := by
  have last {y : Except EvalError Float} (h : (y >>= finite x) = .ok v) : v.isFinite := by
    cases y with
    | error _ => simp [bind, Except.bind] at h
    | ok w =>
      obtain ⟨rfl, hw⟩ := finite_eq_ok h
      exact hw
  cases e with
  | number w => exact last (y := .ok w) h
  | x => exact last (y := .ok x) h
  | neg operand =>
    refine last (y := (- ·) <$> operand.eval x) ?_
    rw [← h, eval]
    cases operand.eval x <;> rfl
  | binary op left right =>
    refine last (y := do op.apply x (← left.eval x) (← right.eval x)) ?_
    rw [← h, eval]
    cases left.eval x <;> cases right.eval x <;> rfl
  | call function argument =>
    refine last (y := do function.apply x (← argument.eval x)) ?_
    rw [← h, eval]
    cases argument.eval x <;> rfl

end Expr

end RealRoots
