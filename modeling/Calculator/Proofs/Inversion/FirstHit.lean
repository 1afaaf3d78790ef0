import Calculator.Inversion
import Calculator.Proofs.Binary64.NotANumber

/-!
# The first hit on the grid

The search tries the points of the grid in order.  While it goes on, no point that it has
tried is a hit, and the function has been applied to these points and to nothing else; it ends
at the first hit, or behind the last point if there is none.
-/

namespace Calculator
namespace Inversion

variable {f : Float → Except EvalError Float} {target : Float}

/-! ## Hits -/

/-- The function succeeds at the point of the index and comes close enough to the target. -/
def IsHit (f : Float → Except EvalError Float) (target : Float) (k : Nat) : Prop :=
  ∃ y, f (gridPoint k) = .ok y ∧ (y - target).abs ≤ tolerance

/-- The first point of the whole grid that is a hit. -/
structure IsFirstHit (f : Float → Except EvalError Float) (target : Float) (k : Nat) : Prop where
  within : k ≤ maxSteps
  hit : IsHit f target k
  first : ∀ j < k, ¬ IsHit f target j

theorem isHit_eq_true_iff {k : Nat} :
    isHit target (f (gridPoint k)) = true ↔ IsHit f target k := by
  rw [IsHit]
  cases f (gridPoint k) with
  | error e => simp [isHit]
  | ok y => simp [isHit]

/-- Neither an output nor a target that is no number makes a hit. -/
theorem not_isHit_of_isNaN {k : Nat} {y : Float} (hy : f (gridPoint k) = .ok y)
    (hnan : y.isNaN = true ∨ target.isNaN = true) : ¬ IsHit f target k := by
  rintro ⟨z, hz, hclose⟩
  obtain rfl := Except.ok.inj (hy.symm.trans hz)
  exact Binary64.not_abs_le_of_isNaN (Binary64.isNaN_sub hnan) hclose

/-! ## Applications -/

/-- The function, with each argument written down that it is applied to. -/
def logged (f : Float → Except EvalError Float) (x : Float) :
    StateM (List Float) (Except EvalError Float) := do
  modify (· ++ [x])
  pure (f x)

/-- The search has come to an index: no point in front of it is a hit, and these are the
points that the function has been applied to. -/
structure Searched (f : Float → Except EvalError Float) (target : Float) (k : Nat)
    (log : List Float) : Prop where
  misses : ∀ j < k, ¬ IsHit f target j
  applied : log = (List.range k).map gridPoint

theorem searched_start : Searched f target 0 [] :=
  ⟨by simp, rfl⟩

theorem applied_succ {k : Nat} {log : List Float} (h : Searched f target k log) :
    log ++ [gridPoint k] = (List.range (k + 1)).map gridPoint := by
  rw [h.applied, List.range_succ, List.map_append, List.map_singleton]

theorem Searched.next {k : Nat} {log : List Float} (h : Searched f target k log)
    (hmiss : ¬ IsHit f target k) : Searched f target (k + 1) (log ++ [gridPoint k]) := by
  refine ⟨?_, applied_succ h⟩
  intro j hj
  rcases Nat.lt_succ_iff_lt_or_eq.mp hj with hj | rfl
  · exact h.misses j hj
  · exact hmiss

/-! ## The search -/

/-- One step applies the function once, and ends the search at a hit. -/
theorem run_searchFrom_succ (points k : Nat) (log : List Float) :
    (searchFrom (logged f) target (points + 1) k).run log =
      if isHit target (f (gridPoint k)) then (some (gridPoint k), log ++ [gridPoint k])
      else (searchFrom (logged f) target points (k + 1)).run (log ++ [gridPoint k]) := by
  have hstep : (searchFrom (logged f) target (points + 1) k).run log =
      (if isHit target (f (gridPoint k)) then pure (some (gridPoint k))
        else searchFrom (logged f) target points (k + 1)).run (log ++ [gridPoint k]) := rfl
  rw [hstep]
  by_cases hhit : isHit target (f (gridPoint k)) = true
  · rw [if_pos hhit, if_pos hhit]
    rfl
  · rw [if_neg hhit, if_neg hhit]

/-- From an index on, the search ends at the first hit if there is one among the points that
are left, and otherwise has applied the function to all of them. -/
theorem run_searchFrom (points : Nat) {k : Nat} {log : List Float}
    (h : Searched f target k log) :
    (∃ j < k + points, IsHit f target j ∧ (∀ i < j, ¬ IsHit f target i) ∧
      (searchFrom (logged f) target points k).run log =
        (some (gridPoint j), (List.range (j + 1)).map gridPoint)) ∨
    ((∀ j < k + points, ¬ IsHit f target j) ∧
      (searchFrom (logged f) target points k).run log =
        (none, (List.range (k + points)).map gridPoint)) := by
  induction points generalizing k log with
  | zero => exact .inr ⟨h.misses, congrArg (Prod.mk none) h.applied⟩
  | succ points ih =>
      rw [run_searchFrom_succ]
      by_cases hhit : IsHit f target k
      · rw [if_pos (isHit_eq_true_iff.mpr hhit)]
        exact .inl ⟨k, by omega, hhit, h.misses, by rw [applied_succ h]⟩
      · rw [if_neg fun htrue => hhit (isHit_eq_true_iff.mp htrue)]
        rw [show k + (points + 1) = k + 1 + points by omega]
        exact ih (h.next hhit)

/-- The whole search ends at the first hit of the grid, or behind its last point. -/
theorem run_findInput (f : Float → Except EvalError Float) (target : Float) :
    (∃ k, IsFirstHit f target k ∧
      (findInput (logged f) target).run [] =
        (some (gridPoint k), (List.range (k + 1)).map gridPoint)) ∨
    ((∀ k ≤ maxSteps, ¬ IsHit f target k) ∧
      (findInput (logged f) target).run [] =
        (none, (List.range (maxSteps + 1)).map gridPoint)) := by
  have hstart : Searched f target 0 [] := searched_start
  rcases run_searchFrom (maxSteps + 1) hstart with
    ⟨k, hk, hhit, hfirst, hrun⟩ | ⟨hmisses, hrun⟩
  · exact .inl ⟨k, ⟨by omega, hhit, hfirst⟩, hrun⟩
  · rw [Nat.zero_add] at hrun
    exact .inr ⟨fun k hk => hmisses k (by omega), hrun⟩

/-- Writing the arguments down makes no difference to what is found. -/
theorem run_searchFrom_eq (points k : Nat) (log : List Float) :
    (searchFrom (m := Id) (fun x => pure (f x)) target points k).run =
      ((searchFrom (logged f) target points k).run log).1 := by
  induction points generalizing k log with
  | zero => rfl
  | succ points ih =>
      have hstep : (searchFrom (m := Id) (fun x => pure (f x)) target (points + 1) k).run =
          (if isHit target (f (gridPoint k)) then pure (some (gridPoint k))
            else searchFrom (m := Id) (fun x => pure (f x)) target points (k + 1)).run := rfl
      rw [run_searchFrom_succ, hstep]
      by_cases hhit : isHit target (f (gridPoint k)) = true
      · rw [if_pos hhit, if_pos hhit]
        rfl
      · rw [if_neg hhit, if_neg hhit]
        exact ih (k + 1) (log ++ [gridPoint k])

/-- What is found is the first hit of the grid, or nothing if there is none. -/
theorem findInput_eq (f : Float → Except EvalError Float) (target : Float) :
    (∃ k, IsFirstHit f target k ∧
      (findInput (m := Id) (fun x => pure (f x)) target).run = some (gridPoint k)) ∨
    ((∀ k ≤ maxSteps, ¬ IsHit f target k) ∧
      (findInput (m := Id) (fun x => pure (f x)) target).run = none) := by
  have hfound : (findInput (m := Id) (fun x => pure (f x)) target).run =
      ((findInput (logged f) target).run []).1 := run_searchFrom_eq (maxSteps + 1) 0 []
  rcases run_findInput f target with ⟨k, hfirst, hrun⟩ | ⟨hmisses, hrun⟩
  · exact .inl ⟨k, hfirst, by rw [hfound, hrun]⟩
  · exact .inr ⟨hmisses, by rw [hfound, hrun]⟩

end Inversion
end Calculator
