import RealRoots.Number.Text
import RealRoots.Json.Stored

/-!
# Expressions in one variable

An expression is built from numbers and the variable `x` by sign, the five operations and the
built-in functions.

* `Function`, `Operator`, `Expr`: the tree.
* `Expr.depth`, `Expr.dependsOnX`: its height, and whether it reads the variable.
* `Expr.text`: the fully bracketed text, from which a tree without a negated base of a power can be
  parsed back.
-/

namespace RealRoots

/-- The built-in functions, each of one argument. -/
inductive Function where
  | sin | cos | tan | asin | acos | atan | sinh | cosh | tanh | sqrt | log | exp | abs
  deriving DecidableEq, Repr

namespace Function

/-- Every function, in the order of the catalogue. -/
def all : List Function :=
  [sin, cos, tan, asin, acos, atan, sinh, cosh, tanh, sqrt, log, exp, abs]

def name : Function → String
  | sin => "sin"
  | cos => "cos"
  | tan => "tan"
  | asin => "asin"
  | acos => "acos"
  | atan => "atan"
  | sinh => "sinh"
  | cosh => "cosh"
  | tanh => "tanh"
  | sqrt => "sqrt"
  | log => "log"
  | exp => "exp"
  | abs => "abs"

/-- The function of that name. The natural logarithm is also called `ln`. -/
def ofName? (name : String) : Option Function :=
  if name = "ln" then some log else all.find? fun f => f.name = name

/-- The number of arguments. -/
def arity (_ : Function) : Nat := 1

end Function

/-- The operations on two numbers. -/
inductive Operator where
  | add | sub | mul | div | pow
  deriving DecidableEq, Repr

def Operator.symbol : Operator → String
  | add => "+"
  | sub => "-"
  | mul => "*"
  | div => "/"
  | pow => "^"

/-- An expression. The constants `pi` and `e` are numbers. -/
inductive Expr where
  | number (value : Float)
  | x
  | neg (operand : Expr)
  | binary (op : Operator) (left right : Expr)
  | call (function : Function) (argument : Expr)
  deriving DecidableEq, Inhabited

namespace Expr

/-- The number of nodes on a longest path to a leaf. -/
def depth : Expr → Nat
  | number _ | x => 1
  | neg operand => 1 + operand.depth
  | binary _ left right => 1 + max left.depth right.depth
  | call _ argument => 1 + argument.depth

/-- Does the expression read the variable anywhere? -/
def dependsOnX : Expr → Bool
  | number _ => false
  | x => true
  | neg operand => operand.dependsOnX
  | binary _ left right => left.dependsOnX || right.dependsOnX
  | call _ argument => argument.dependsOnX

/-- The text with every operation in brackets. -/
def text : Expr → String
  | number value => plain value
  | x => "x"
  | neg operand => "-(" ++ operand.text ++ ")"
  | binary op left right => "(" ++ left.text ++ " " ++ op.symbol ++ " " ++ right.text ++ ")"
  | call function argument => function.name ++ "(" ++ argument.text ++ ")"

theorem depth_pos (e : Expr) : 0 < e.depth := by
  cases e <;> simp only [depth] <;> omega

end Expr

end RealRoots
