import RealRoots.Solver.Config

/-!
# Sampling

A curve is a formula at evenly spaced values of `x`, less the values where it has none.

* `sample`: the points of a curve over a range.
* `plotRange`: the range around a root.
-/

namespace RealRoots

/-- A point of the graph of a formula. -/
structure SamplePoint where
  x : Float
  y : Float
  deriving DecidableEq

instance : Stored SamplePoint where
  write p := .object [("x", write p.x), ("y", write p.y)]
  read? := Json.readFields ["x", "y"] [] fun value => do
    some ⟨← value.required "x", ← value.required "y"⟩

/-- The number of points of a curve. -/
def defaultPoints : Nat := 100

/-- The distance from a root to the ends of its range. -/
def defaultPadding : Float := 5

/-- The distance between neighbours among `points` values from `start` to `stop`. -/
def gridStep (start stop : Float) (points : Nat) : Float :=
  (stop - start) / (points - 1).toFloat

/-- The value with number `i`, counted from zero. -/
def gridValue (start step : Float) (i : Nat) : Float :=
  start + i.toFloat * step

/-- The points of a formula at `points` values from `start` to `stop`. -/
def sample (f : Formula) (start stop : Float) (points : Nat) :
    Except SolverError (List SamplePoint) := do
  unless start.isFinite && stop.isFinite && start < stop do
    throw (.invalidParameter "range" ("[" ++ plain start ++ ", " ++ plain stop ++ "]")
      "Range must be finite with start < end")
  if points < 2 then
    throw (.invalidParameter "points" (toString points) "At least two points are required")
  let step := gridStep start stop points
  .ok <| (List.range points).filterMap fun i =>
    let x := gridValue start step i
    (f.eval x).toOption.map fun y => ⟨x, y⟩

/-- The range around a root, or around zero if there is none. -/
def plotRange (center : Option Float) (padding : Float) : Float × Float :=
  (center.getD 0 - padding, center.getD 0 + padding)

end RealRoots
