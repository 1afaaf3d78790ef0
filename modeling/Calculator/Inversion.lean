import Calculator.Error

/-!
# Inverting a function by search

The inputs `0, 0.1, 0.2, …, 10000` are tried in order until one is found whose
output is close enough to the target.  Inputs at which the function fails are
passed over.  Solutions below zero or between the points are not found.
-/

namespace Calculator
namespace Inversion

/-- The index of the last point that is tried. -/
def maxSteps : Nat := 100000

/-- The greatest distance from the target that counts as a hit. -/
def tolerance : Float := 1e-6

/-- The point of a given index.  Tenths are reached by division, so that whole
numbers are met exactly. -/
def gridPoint (k : Nat) : Float :=
  Float.ofNat k / 10

/-- Whether an outcome is close enough to the target. -/
def isHit (target : Float) : Except EvalError Float → Bool
  | .ok y => (y - target).abs ≤ tolerance
  | .error _ => false

/-- Tries a number of points in order from a given index on. -/
@[specialize]
def searchFrom {m : Type → Type} [Monad m]
    (f : Float → m (Except EvalError Float)) (target : Float) :
    (points : Nat) → (k : Nat) → m (Option Float)
  | 0, _ => pure none
  | points + 1, k => do
    if isHit target (← f (gridPoint k)) then pure (some (gridPoint k))
    else searchFrom f target points (k + 1)

/-- The first point at which the function comes close enough to the target.

The function is applied in a monad of the caller's choice, so that its
applications can be observed. -/
@[specialize]
def findInput {m : Type → Type} [Monad m]
    (f : Float → m (Except EvalError Float)) (target : Float) : m (Option Float) :=
  searchFrom f target (maxSteps + 1) 0

end Inversion
end Calculator
