import RealRoots.Comparison

/-!
# Test cases

A small catalogue of functions that bring out how the methods differ: fast convergence, a cycle of
Newton-Raphson, many roots, an exponential, and three roots close together.
-/

namespace RealRoots

/-- A function with two guesses and the roots near them. -/
structure TestCase where
  id : String
  name : String
  function : String
  /-- The guess of Newton-Raphson, and the first one of the secant method. -/
  initialGuess : Float
  /-- The second guess of the secant method. -/
  secondGuess : Float
  description : String
  /-- Roots in ascending order. -/
  knownRoots : List Float

namespace TestCase

/-- The stored form. A case is never read back. -/
def toJson (c : TestCase) : Json :=
  .object [("id", write c.id), ("name", write c.name), ("function", write c.function),
    ("initial_guess", write c.initialGuess), ("second_guess", write c.secondGuess),
    ("description", write c.description), ("known_roots", write c.knownRoots)]

def newtonInput (c : TestCase) : NewtonInput :=
  { expression := c.function, x0 := c.initialGuess }

def secantInput (c : TestCase) : SecantInput :=
  { expression := c.function, x0 := c.initialGuess, x1 := c.secondGuess }

def comparisonInput (c : TestCase) : ComparisonInput :=
  { expression := c.function, x0 := c.initialGuess, x1 := c.secondGuess }

/-- The known root closest to `x`, the first of several. -/
def nearestRoot? (c : TestCase) (x : Float) : Option Float :=
  match c.knownRoots with
  | [] => none
  | root :: roots =>
    some <| roots.foldl
      (fun best root => if (root - x).abs < (best - x).abs then root else best) root

end TestCase

/-- The test cases. -/
def catalogue : List TestCase := [
  { id := "quadratic"
    name := "Well-behaved Quadratic"
    function := "x^2 - 4"
    initialGuess := 3
    secondGuess := 2
    description :=
      "A simple quadratic with roots at x = -2 and x = 2. Both methods converge quickly."
    knownRoots := [-2, 2] },
  { id := "cubic"
    name := "Derivative Challenge"
    function := "x^3 - 2*x + 2"
    initialGuess := 1
    secondGuess := 0
    description :=
      "A cubic on which Newton-Raphson cycles between 0 and 1 from the textbook guesses."
    knownRoots := [-1.769292354238631] },
  { id := "trigonometric"
    name := "Trigonometric Function"
    function := "sin(x)"
    initialGuess := 3
    secondGuess := 3.5
    description := "A sine with a root every pi. Different methods may find different roots."
    knownRoots := [0, circleNumber, 6.283185307179586] },
  { id := "exponential"
    name := "Convergence Stress Test"
    function := "e^x - x - 2"
    initialGuess := 1
    secondGuess := 2
    description := "An exponential that highlights differences in method robustness."
    knownRoots := [-1.8414056604369606, 1.1461932206205825] },
  { id := "challenging"
    name := "Challenging Function"
    function := "x^3 - 7*x^2 + 14*x - 6"
    initialGuess := 0.5
    secondGuess := 1
    description :=
      "A cubic with three roots (2 - sqrt(2), 3, 2 + sqrt(2)) that challenges convergence."
    knownRoots := [0.5857864376269049, 3, 3.414213562373095] }]

/-- The test case of that id. -/
def findCase? (id : String) : Option TestCase :=
  catalogue.find? fun c => c.id = id

end RealRoots
