import RealRoots.Expr.Parser

/-!
# Formulas

A formula is a function of `x` given by a text. Its tree is what the text parses to, and its source
is the text without the blanks at its ends.

* `Formula.parse`: the formula of a text.
* `Formula.read`: the formula of a text that also has a value at a sample point.
* `Formula.slope`: its derivative at a point, by the chosen method.
-/

namespace RealRoots

/-- How the derivative of a formula is computed. -/
structure DerivativeOptions where
  method : Differentiation := .centralDifference
  /-- The distance of the two points of a central difference from the middle. -/
  step : Float := 1e-7
  deriving DecidableEq

namespace DerivativeOptions

def default : DerivativeOptions := {}

/-- The default options, with exact derivatives where there are any. -/
def shortcut : DerivativeOptions := { method := .shortcut }

instance : Stored DerivativeOptions where
  write o := .object [("method", write o.method), ("step", write o.step)]
  read? := Json.readFields [] ["method", "step"] fun value => do
    some {
      method := ← value.orElse "method" default.method
      step := ← value.orElse "step" default.step }

end DerivativeOptions

/-- A function of `x`, with the text it was given by. -/
structure Formula where
  source : String
  tree : Expr
  deriving DecidableEq

namespace Formula

/-- The formula of a text. -/
def parse (text : String) : Except FormulaError Formula := do
  .ok ⟨Text.trim text, ← RealRoots.parse text⟩

/-- The value at `x`. -/
def eval (f : Formula) (x : Float) : Except EvalError Float :=
  f.tree.eval x

/-- The points at which a formula is tried out. -/
def samplePoints : List Float := [-1, 0, 1]

/-- Has the formula a value at one of the sample points? If not, the error is that at the first. -/
def check (f : Formula) : Except FormulaError Unit :=
  match samplePoints.map f.eval with
  | [.error first, .error _, .error _] => .error (.undefinedAtSamples first)
  | _ => .ok ()

/-- The formula of a text, if it has a value at one of the sample points. -/
def read (text : String) : Except FormulaError Formula := do
  let f ← parse text
  f.check
  .ok f

/-- The exact derivative, if there is one. -/
def derivative? (f : Formula) : Option Expr :=
  f.tree.derivative?

/-- The value of the exact derivative at `x`, if there is one. -/
def exactSlope? (f : Formula) (x : Float) : Option Float := do
  ((← f.derivative?).eval x).toOption

/-- The derivative at `x`. Central differences stand in for an exact derivative without a value. -/
def slope (f : Formula) (options : DerivativeOptions) (x : Float) : Except EvalError Float :=
  match if options.method = .shortcut then f.exactSlope? x else none with
  | some value => .ok value
  | none => f.tree.centralDifference options.step x

/-- A formula is stored as its source, which is read again. -/
instance : Stored Formula where
  write f := .string f.source
  read?
    | .string text => (read text).toOption
    | _ => none

end Formula

end RealRoots
