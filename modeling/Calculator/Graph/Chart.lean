import Calculator.Binary64.Basic
import Calculator.Graph.Interpolation

/-!
# Graphs of functions

A function is sampled from `-10` to `10` by tenths.  What is drawn is a chart: a
curve with the ranges and labels that a drawing device needs.
-/

namespace Calculator

/-- The samples of a function, point by point; a value that could not be
computed is NaN. -/
structure Samples where
  name : String
  xs : List Float
  ys : List Float

namespace Graph

/-- The points at which a function is sampled. -/
def samplePoints : List Float :=
  (List.range 201).map fun (k : Nat) => Binary64.ofInt ((k : Int) - 100) / 10

end Graph

/-- The size of a drawing in characters. -/
structure Canvas where
  width : Nat := 120
  height : Nat := 40

/-- What is handed to a drawing device. -/
structure Chart where
  domain : Float × Float
  codomain : Float × Float
  canvas : Canvas
  title : String
  xLabel : String
  yLabel : String
  curve : Float → Float

namespace Samples

/-- The chart of some samples, unless there are none or no value is finite. -/
def chart? (s : Samples) (canvas : Canvas) : Option Chart := do
  let first ← s.xs.head?
  let last ← s.xs.getLast?
  let codomain ← Graph.bounds Float.isFinite s.ys
  return {
    domain := (first, last)
    codomain
    canvas
    title := s!"Graph of {s.name}(x)"
    xLabel := "x"
    yLabel := "y"
    curve := Graph.interpolate Binary64.nan s.xs s.ys }

end Samples
end Calculator
