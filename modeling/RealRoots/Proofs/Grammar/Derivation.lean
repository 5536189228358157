import Mathlib.Tactic.Basic
import RealRoots.Expr.Parser

/-!
# Derivations

The grammar of formulas as a type of derivations. A phrase is a sum, a product, a signed factor, a
power or a primary, and a derivation of a phrase is built by one constructor for each way the phrase
can be formed. Sums and products grow to the right, so they group to the left; the exponent of a
power is a signed factor, so powers group to the right and bind tighter than a sign.

* `yield`: the tokens that a derivation derives.
* `tree`: the expression that it assigns to them. Brackets and plus signs leave no trace in it.
* `nesting`: how deep its signed factors nest. The right factor of an implicit product is a power
  and adds no level of its own.
* `Valid`: every implicit product has a number just before its right factor, which starts with a
  name or a bracket.
-/

namespace RealRoots.Grammar

open Token

/-- The phrases of the grammar, from the loosest to the tightest. -/
inductive Symbol where
  | sum | product | unary | power | primary
  deriving DecidableEq

/-- The token that an operator is written with. -/
def sign : Operator → Kind
  | .add => .plus
  | .sub => .minus
  | .mul => .star
  | .div => .slash
  | .pow => .caret

/-- What a name that stands alone denotes. -/
inductive Constant : String → Expr → Prop
  | x {name : String} : name = "x" → Constant name .x
  | pi {name : String} : name ∈ ["pi", "PI", "π"] → Constant name (.number circleNumber)
  | e {name : String} : name ∈ ["e", "E"] → Constant name (.number eulerNumber)

/-- The functions by name. The natural logarithm has two. -/
inductive Named : String → Function → Prop
  | name (function : Function) : Named function.name function
  | ln : Named "ln" .log

/-- A derivation of a phrase. -/
inductive Derivation : Symbol → Type
  | term (only : Derivation .product) : Derivation .sum
  | sum (left : Derivation .sum) (op : Operator) (right : Derivation .product)
      (h : op = .add ∨ op = .sub) : Derivation .sum
  | factor (only : Derivation .unary) : Derivation .product
  | product (left : Derivation .product) (op : Operator) (right : Derivation .unary)
      (h : op = .mul ∨ op = .div) : Derivation .product
  | implicit (left : Derivation .product) (right : Derivation .power) : Derivation .product
  | minus (operand : Derivation .unary) : Derivation .unary
  | plus (operand : Derivation .unary) : Derivation .unary
  | unsigned (only : Derivation .power) : Derivation .unary
  | bare (only : Derivation .primary) : Derivation .power
  | raised (base : Derivation .primary) (exponent : Derivation .unary) : Derivation .power
  | number (value : Float) : Derivation .primary
  | name (spelling : String) (meaning : Expr) (h : Constant spelling meaning) : Derivation .primary
  | brackets (inner : Derivation .sum) : Derivation .primary
  | call (spelling : String) (function : Function) (h : Named spelling function)
      (argument : Derivation .sum) : Derivation .primary

/-- Is the last token a number? -/
def EndsInNumber (u : List Kind) : Prop :=
  ∃ value, u.getLast? = some (.number value)

/-- Is the first token a name or an opening bracket? -/
def StartsFactor (u : List Kind) : Prop :=
  u.head? = some .leftParen ∨ ∃ name, u.head? = some (.identifier name)

namespace Derivation

variable {s : Symbol}

/-- The tokens that a derivation derives. -/
def yield {s : Symbol} : Derivation s → List Kind
  | term only => only.yield
  | sum left op right _ => left.yield ++ sign op :: right.yield
  | factor only => only.yield
  | product left op right _ => left.yield ++ sign op :: right.yield
  | implicit left right => left.yield ++ right.yield
  | minus operand => .minus :: operand.yield
  | plus operand => .plus :: operand.yield
  | unsigned only => only.yield
  | bare only => only.yield
  | raised base exponent => base.yield ++ .caret :: exponent.yield
  | number value => [.number value]
  | name spelling _ _ => [.identifier spelling]
  | brackets inner => .leftParen :: (inner.yield ++ [.rightParen])
  | call spelling _ _ argument =>
    .identifier spelling :: .leftParen :: (argument.yield ++ [.rightParen])

/-- The expression that a derivation assigns to its tokens. -/
def tree {s : Symbol} : Derivation s → Expr
  | term only => only.tree
  | sum left op right _ => .binary op left.tree right.tree
  | factor only => only.tree
  | product left op right _ => .binary op left.tree right.tree
  | implicit left right => .binary .mul left.tree right.tree
  | minus operand => .neg operand.tree
  | plus operand => operand.tree
  | unsigned only => only.tree
  | bare only => only.tree
  | raised base exponent => .binary .pow base.tree exponent.tree
  | number value => .number value
  | name _ meaning _ => meaning
  | brackets inner => inner.tree
  | call _ function _ argument => .call function argument.tree

/-- How many signed factors stand inside one another. -/
def nesting {s : Symbol} : Derivation s → Nat
  | term only => only.nesting
  | sum left _ right _ => max left.nesting right.nesting
  | factor only => only.nesting
  | product left _ right _ => max left.nesting right.nesting
  | implicit left right => max left.nesting right.nesting
  | minus operand => operand.nesting + 1
  | plus operand => operand.nesting + 1
  | unsigned only => only.nesting + 1
  | bare only => only.nesting
  | raised base exponent => max base.nesting exponent.nesting
  | number _ => 0
  | name .. => 0
  | brackets inner => inner.nesting
  | call _ _ _ argument => argument.nesting

/-- The rule of implicit products holds throughout. -/
def Valid {s : Symbol} : Derivation s → Prop
  | term only => only.Valid
  | sum left _ right _ => left.Valid ∧ right.Valid
  | factor only => only.Valid
  | product left _ right _ => left.Valid ∧ right.Valid
  | implicit left right =>
    left.Valid ∧ right.Valid ∧ EndsInNumber left.yield ∧ StartsFactor right.yield
  | minus operand => operand.Valid
  | plus operand => operand.Valid
  | unsigned only => only.Valid
  | bare only => only.Valid
  | raised base exponent => base.Valid ∧ exponent.Valid
  | number _ => True
  | name .. => True
  | brackets inner => inner.Valid
  | call _ _ _ argument => argument.Valid

/-- A derivation within the limits: its signed factors and its tree nest at most `maxDepth` deep. -/
structure Within (d : Derivation s) : Prop where
  nesting_le : d.nesting ≤ maxDepth
  depth_le : d.tree.depth ≤ maxDepth

theorem yield_ne_nil (d : Derivation s) : d.yield ≠ [] := by
  induction d <;> simp_all [yield]

/-- A power or primary starts with an operand, never with a sign. -/
theorem head_yield_of_power : ∀ d : Derivation .power,
    StartsFactor d.yield ∨ ∃ value, d.yield.head? = some (.number value) := by
  have primary (d : Derivation .primary) :
      StartsFactor d.yield ∨ ∃ value, d.yield.head? = some (.number value) := by
    cases d <;> simp [yield, StartsFactor]
  intro d
  cases d with
  | bare only => exact primary only
  | raised base exponent =>
    obtain ⟨k, u, hu⟩ := List.exists_cons_of_ne_nil base.yield_ne_nil
    have := primary base
    simpa [yield, hu, StartsFactor] using this

/-- Every derivation closes the brackets that it opens. -/
theorem count_parens (d : Derivation s) :
    d.yield.count .leftParen = d.yield.count .rightParen := by
  induction d with
  | sum _ op _ hop ihl ihr => obtain rfl | rfl := hop <;> simp [yield, sign, ihl, ihr]
  | product _ op _ hop ihl ihr => obtain rfl | rfl := hop <;> simp [yield, sign, ihl, ihr]
  | _ => simp_all [yield]

end Derivation

theorem Constant.functional {name : String} {a b : Expr} (ha : Constant name a)
    (hb : Constant name b) : a = b := by
  cases ha <;> cases hb <;> grind

theorem Named.iff_ofName? {name : String} {f : Function} :
    Named name f ↔ Function.ofName? name = some f := by
  constructor
  · rintro (f | _)
    · cases f <;> decide
    · decide
  · unfold Function.ofName?
    split
    · rintro ⟨⟩
      subst name
      exact .ln
    · intro h
      have hname := List.find?_some h
      simp only [decide_eq_true_eq] at hname
      exact hname ▸ .name f

end RealRoots.Grammar
