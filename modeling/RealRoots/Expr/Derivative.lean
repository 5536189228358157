import RealRoots.Expr.Eval

/-!
# Derivatives

* `Expr.centralDifference`: the slope between `x - h` and `x + h`, for any expression.
* `Expr.derivative?`: the exact derivative of sums, constant multiples and quotients of a few basic
  patterns; there is no chain rule.
* `Differentiation`: which of the two to use.
-/

namespace RealRoots

/-- The double nearest to the base of the natural logarithm. -/
def eulerNumber : Float := 2.718281828459045

/-- The double nearest to the circle number. -/
def circleNumber : Float := 3.141592653589793

/-- How derivatives are computed. -/
inductive Differentiation where
  /-- Central differences everywhere. -/
  | centralDifference
  /-- The exact derivative where there is one, and central differences elsewhere. -/
  | shortcut
  deriving DecidableEq, Repr

instance : Spelled Differentiation where
  all := [.centralDifference, .shortcut]
  spelling
    | .centralDifference => "central_difference"
    | .shortcut => "shortcut"

namespace Expr

/-- `(f (x + h) - f (x - h)) / 2h`, evaluated forward first. -/
def centralDifference (f : Expr) (h x : Float) : Except EvalError Float := do
  let forward ← f.eval (x + h)
  let backward ← f.eval (x - h)
  finite x ((forward - backward) / (2 * h))

/-- The exact derivative, if every part of the expression is a pattern that has one. -/
def derivative? : Expr → Option Expr
  | number _ => some (number 0)
  | x => some (number 1)
  | neg operand => do some (neg (← operand.derivative?))
  | binary .add left right => do some (binary .add (← left.derivative?) (← right.derivative?))
  | binary .sub left right => do some (binary .sub (← left.derivative?) (← right.derivative?))
  | binary .mul (number c) g => do some (binary .mul (number c) (← g.derivative?))
  | binary .mul g (number c) => do some (binary .mul (number c) (← g.derivative?))
  | binary .div g (number c) => do some (binary .div (← g.derivative?) (number c))
  | binary .pow x (number n) => some (binary .mul (number n) (binary .pow x (number (n - 1))))
  | binary .pow (number base) x =>
    if base == eulerNumber then some (binary .pow (number base) x) else none
  | call .sin x => some (call .cos x)
  | call .cos x => some (neg (call .sin x))
  | call .exp x => some (call .exp x)
  | call .log x => some (binary .div (number 1) x)
  | _ => none

end Expr

end RealRoots
