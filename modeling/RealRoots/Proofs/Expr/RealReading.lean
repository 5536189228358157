import Mathlib
import RealRoots.Expr.Derivative

/-!
# Expressions over the real numbers

Evaluation rounds at every node. Here an expression is a partial function of a real variable, and
nothing is rounded: a literal is the number that its double is. The double nearest to the base of
the natural logarithm is read as that base.

* `literal?`, `power?`, `Operator.real?`, `Function.real?`: one node.
* `Expr.real?`: the value of an expression at a real number.
* `Expr.realSlope?`: the same for a derivative, where the exponent `n - 1` beside a factor `n` is
  exactly that.
-/

namespace RealRoots

/-! ## Nodes -/

/-- The number that a size is. -/
noncomputable def Dyadic.real (d : Dyadic) : ℝ :=
  d.mantissa * 2 ^ d.exponent

/-- The number that a literal stands for. Infinities and NaN stand for none. -/
noncomputable def literal? (c : Float) : Option ℝ :=
  if c == eulerNumber then some (Real.exp 1)
  else
    match Shape.of c with
    | .finite negative size => some (if negative then -size.real else size.real)
    | _ => none

/-- A power. An integer exponent gives a product, or its reciprocal unless the base is zero. Any
other exponent asks for a base above zero. -/
noncomputable def power? (a b : ℝ) : Option ℝ :=
  if b = ⌊b⌋ then
    if a = 0 ∧ b < 0 then none else some (a ^ ⌊b⌋)
  else if 0 < a then some (a ^ b)
  else none

noncomputable def Operator.real? (op : Operator) (a b : ℝ) : Option ℝ :=
  match op with
  | add => some (a + b)
  | sub => some (a - b)
  | mul => some (a * b)
  | div => if b = 0 then none else some (a / b)
  | pow => power? a b

noncomputable def Function.real? (f : Function) (a : ℝ) : Option ℝ :=
  match f with
  | sin => some (Real.sin a)
  | cos => some (Real.cos a)
  | tan => if Real.cos a = 0 then none else some (Real.tan a)
  | asin => if -1 ≤ a ∧ a ≤ 1 then some (Real.arcsin a) else none
  | acos => if -1 ≤ a ∧ a ≤ 1 then some (Real.arccos a) else none
  | atan => some (Real.arctan a)
  | sinh => some (Real.sinh a)
  | cosh => some (Real.cosh a)
  | tanh => some (Real.tanh a)
  | sqrt => if 0 ≤ a then some (Real.sqrt a) else none
  | log => if 0 < a then some (Real.log a) else none
  | exp => some (Real.exp a)
  | abs => some |a|

theorem literal?_of_beq {c : Float} (h : c == eulerNumber) : literal? c = some (Real.exp 1) :=
  if_pos h

theorem literal?_of_shape {c : Float} (size : Dyadic) (hbase : ¬ c == eulerNumber)
    (h : Shape.of c = .finite false size) : literal? c = some size.real := by
  rw [literal?, if_neg hbase, h]
  rfl

theorem literal?_zero : literal? 0 = some 0 := by
  rw [literal?_of_shape ⟨0, 0⟩ (by decide +kernel) (by decide +kernel)]
  simp [Dyadic.real]

theorem literal?_one : literal? 1 = some 1 := by
  rw [literal?_of_shape ⟨2 ^ 52, -52⟩ (by decide +kernel) (by decide +kernel)]
  norm_num [Dyadic.real]

/-- Both kinds of power are the real power. The base is not zero under a negative exponent. -/
theorem power?_eq_some {a b v : ℝ} (h : power? a b = some v) : v = a ^ b ∧ (a ≠ 0 ∨ 0 ≤ b) := by
  unfold power? at h
  split at h
  · rename_i hinteger
    split at h
    · cases h
    · rename_i hbase
      cases h
      constructor
      · rw [← Real.rpow_intCast, ← hinteger]
      · by_cases ha : a = 0
        · exact .inr (not_lt.1 fun hb => hbase ⟨ha, hb⟩)
        · exact .inl ha
  · split at h
    · rename_i hpos
      cases h
      exact ⟨rfl, .inl hpos.ne'⟩
    · cases h

theorem Operator.div_real?_eq_some {a b v : ℝ} :
    Operator.div.real? a b = some v ↔ b ≠ 0 ∧ a / b = v := by
  simp [real?]

theorem Function.log_real?_eq_some {a v : ℝ} :
    Function.log.real? a = some v ↔ 0 < a ∧ Real.log a = v := by
  simp [real?]

/-! ## Trees -/

namespace Expr

/-- The value at `x`, if there is one. -/
noncomputable def real? (x : ℝ) : Expr → Option ℝ
  | number c => literal? c
  | .x => some x
  | neg operand => do some (-(← operand.real? x))
  | binary op left right => do op.real? (← left.real? x) (← right.real? x)
  | call function argument => do function.real? (← argument.real? x)

/-- The exponent in `n * x ^ m`. The rule for powers rounds `n - 1` to `m`, and is read as if it
did not. -/
noncomputable def exponent? (n m : Float) : Option ℝ :=
  if m = n - 1 then (literal? n).map (· - 1) else literal? m

/-- The value of a derivative at `x`, if there is one. -/
noncomputable def realSlope? (x : ℝ) : Expr → Option ℝ
  | binary .mul (number n) (binary .pow .x (number m)) => do
    some ((← literal? n) * (← power? x (← exponent? n m)))
  | number c => literal? c
  | .x => some x
  | neg operand => do some (-(← operand.realSlope? x))
  | binary op left right => do op.real? (← left.realSlope? x) (← right.realSlope? x)
  | call function argument => do function.real? (← argument.realSlope? x)

/-- Only products may be read in another way. -/
theorem realSlope?_of_ne_mul {op : Operator} (a b : Expr) (x : ℝ) (h : op ≠ .mul) :
    (binary op a b).realSlope? x = (do op.real? (← a.realSlope? x) (← b.realSlope? x)) := by
  rw [realSlope?]
  exact fun _ _ hop => absurd hop h

/-- The rule for powers is read exactly. -/
theorem realSlope?_power (n : Float) (x : ℝ) :
    (binary .mul (number n) (binary .pow .x (number (n - 1)))).realSlope? x = (do
      let factor ← literal? n
      some (factor * (← power? x (factor - 1)))) := by
  rw [realSlope?, exponent?, if_pos rfl]
  cases literal? n <;> rfl

/-- Any other product is a product. -/
theorem realSlope?_mul {c : Float} {g : Expr} (x : ℝ) (h : ∀ m, g ≠ binary .pow .x (number m)) :
    (binary .mul (number c) g).realSlope? x = (do
      some ((← literal? c) * (← g.realSlope? x))) := by
  rw [realSlope?]
  · rfl
  · rintro _ _ - - rfl
    exact h _ rfl

end Expr

end RealRoots
