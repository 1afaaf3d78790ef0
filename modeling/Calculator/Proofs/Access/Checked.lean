import Calculator.Error

/-!
# Accesses that may be out of range

A computation is written out with all its accesses, each of which has an outcome only where it
is in range; without one the whole computation has none.  That every access is in range is then
the same as that the computation has the outcome of the one without them.
-/

namespace Calculator
namespace Access

/-- A computation that has no outcome where one of its accesses is out of range. -/
abbrev Checked (α : Type) : Type :=
  ExceptT EvalError Option α

namespace Checked

variable {α β : Type}

/-- A computation in which every access is in range. -/
def of (x : Except EvalError α) : Checked α :=
  ExceptT.mk (some x)

/-- An access as a step of a computation. -/
def access (x : Option α) : Checked α :=
  ExceptT.lift x

theorem run_of (x : Except EvalError α) : (of x).run = some x :=
  rfl

theorem access_some (a : α) : access (some a) = of (.ok a) :=
  rfl

/-- Steps in range make a computation in range. -/
theorem bind_of {x : Except EvalError α} {f : α → Checked β} {g : α → Except EvalError β}
    (h : ∀ a, f a = of (g a)) : (of x >>= f) = of (x >>= g) := by
  cases x with
  | error e => rfl
  | ok a => exact h a

theorem ok_bind (a : α) (f : α → Checked β) : (of (.ok a) >>= f) = f a :=
  rfl

theorem map_of (f : α → β) (x : Except EvalError α) : f <$> of x = of (x.map f) := by
  cases x with
  | error e => rfl
  | ok a => rfl

theorem foldlM_of {step? : β → α → Checked β} {step : β → α → Except EvalError β}
    (h : ∀ b a, step? b a = of (step b a)) (xs : List α) (b : β) :
    xs.foldlM step? b = of (xs.foldlM step b) := by
  induction xs generalizing b with
  | nil => rfl
  | cons a xs ih =>
      rw [List.foldlM_cons, List.foldlM_cons, h]
      exact bind_of ih

theorem mapM_of {f? : α → Checked β} {f : α → Except EvalError β} (h : ∀ a, f? a = of (f a))
    (xs : List α) : xs.mapM f? = of (xs.mapM f) := by
  induction xs with
  | nil => rfl
  | cons a xs ih =>
      rw [List.mapM_cons, List.mapM_cons, h, ih]
      exact bind_of fun b => bind_of fun bs => rfl

end Checked
end Access
end Calculator
