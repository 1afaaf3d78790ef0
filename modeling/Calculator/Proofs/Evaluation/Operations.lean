import Calculator.Builtin
import Calculator.Operator
import Calculator.Proofs.Binary64.NotANumber
import Calculator.Proofs.Support.Computation

/-!
# Operations without a result

On arguments that are numbers, an operator or a built-in function either gives a number or
says by an error that it has no result there.  Two sorts of calls are not guarded like this:
a trigonometric function at an infinity, and a logarithm of infinity to the base infinity.
-/

namespace Calculator

/-- What the functions of the mathematical library promise about infinities and NaN. -/
structure Elementary.Lawful [Elementary] : Prop where
  isNaN_sin : ∀ v, (sin v).isNaN = (v.isNaN || v.isInf)
  isNaN_cos : ∀ v, (cos v).isNaN = (v.isNaN || v.isInf)
  isNaN_tan : ∀ v, (tan v).isNaN = (v.isNaN || v.isInf)
  isNaN_asin : ∀ v, -1 ≤ v → v ≤ 1 → (asin v).isNaN = false
  isNaN_acos : ∀ v, -1 ≤ v → v ≤ 1 → (acos v).isNaN = false
  isNaN_atan : ∀ v, (atan v).isNaN = v.isNaN
  isNaN_exp : ∀ v, (exp v).isNaN = v.isNaN
  isNaN_ln : ∀ v, v.isNaN = false → ¬ v ≤ 0 → (ln v).isNaN = false
  isInf_ln : ∀ v, v.isNaN = false → ¬ v ≤ 0 → (ln v).isInf = v.isInf
  ln_eq_zero : ∀ v, v.isNaN = false → ¬ v ≤ 0 → (ln v == 0) = true → (v == 1) = true

namespace Evaluation

open Support

/-- A result that is no NaN: a number, or the error of an operation that has none. -/
def IsGuarded (name : String) : Except EvalError Value → Prop
  | .ok v => v.toFloat.isNaN = false
  | .error err => err = .domain name ∨ err = .divisionByZero

/-- The calls that have no result and say so by no error. -/
inductive Unguarded : (name : String) → (inputs : List Float) → Prop where
  | trigonometric {name : String} {v : Float} (hname : name ∈ ["sin", "cos", "tan"])
      (hv : v.isInf = true) : Unguarded name [v]
  | logarithm {name : String} (hname : name ∈ ["log", "ln"]) :
      Unguarded name [Binary64.infinity, Binary64.infinity]

theorem isGuarded_ite {name : String} {p : Prop} [Decidable p]
    {result result' : Except EvalError Value} (hyes : p → IsGuarded name result)
    (hno : ¬ p → IsGuarded name result') : IsGuarded name (if p then result else result') := by
  by_cases h : p
  · rw [if_pos h]
    exact hyes h
  · rw [if_neg h]
    exact hno h

theorem isGuarded_domain (name : String) : IsGuarded name (.error (.domain name)) :=
  .inl rfl

theorem isGuarded_divisionByZero (name : String) : IsGuarded name (.error .divisionByZero) :=
  .inr rfl

/-! ## Checks of single functions -/

theorem isGuarded_checked (name : String) (v : Float) :
    IsGuarded name (Builtin.checked name v) :=
  isGuarded_ite (fun _ => isGuarded_domain name) Bool.eq_false_of_not_eq_true

theorem isGuarded_inverseTrig {name : String} {f : Float → Float}
    (hf : ∀ v, -1 ≤ v → v ≤ 1 → (f v).isNaN = false) (v : Float) :
    IsGuarded name (Builtin.inverseTrig name f v) :=
  isGuarded_ite (fun h => hf v h.1 h.2) (fun _ => isGuarded_domain name)

theorem isGuarded_sqrt {v : Float} (hv : v.isNaN = false) :
    IsGuarded "sqrt" (if v < 0 then .error (.domain "sqrt") else .ok (.number v.sqrt)) :=
  isGuarded_ite (fun _ => isGuarded_domain "sqrt") (Binary64.isNaN_sqrt hv)

theorem integral_eq_or (name : String) (v : Float) :
    Builtin.integral name v = .error (.domain name) ∨ ∃ n, Builtin.integral name v = .ok n := by
  rw [Builtin.integral]
  cases Binary64.whole? v with
  | none => exact .inl rfl
  | some n =>
      dsimp only
      split
      · exact .inr ⟨n, rfl⟩
      · exact .inl rfl

theorem isGuarded_integral (v : Float) :
    IsGuarded "dec" ((Builtin.integral "dec" v).map (Value.integer · 10)) := by
  rcases integral_eq_or "dec" v with h | ⟨n, h⟩
  · rw [h]
    exact isGuarded_domain "dec"
  · rw [h]
    exact Binary64.isNaN_ofInt n

theorem isGuarded_truncatedInRadix (name : String) (radix : Nat) (v : Float) :
    IsGuarded name (Builtin.truncatedInRadix name radix v) := by
  rw [Builtin.truncatedInRadix]
  cases Binary64.truncate? v with
  | none => exact isGuarded_domain name
  | some n => exact isGuarded_ite (fun _ => Binary64.isNaN_ofInt n) (fun _ => isGuarded_domain name)

/-- A product of numbers goes on as a number with factors that are finite and not zero. -/
theorem isNaN_foldl_mul {factor : Nat → Float} {ks : List Nat}
    (hfactor : ∀ k ∈ ks, (factor k).isFinite = true ∧ (factor k == 0) = false) {p : Float}
    (hp : p.isNaN = false) : (ks.foldl (fun p k => p * factor k) p).isNaN = false := by
  induction ks generalizing p with
  | nil => exact hp
  | cons k ks ih =>
      obtain ⟨⟨hfinite, hzero⟩, hrest⟩ := List.forall_mem_cons.mp hfactor
      exact ih hrest (Binary64.isNaN_mul hp hfinite hzero)

theorem factors_finite :
    ∀ k < 170, (Float.ofNat (k + 2)).isFinite = true ∧ (Float.ofNat (k + 2) == 0) = false := by
  decide +kernel

theorem isGuarded_factorial (v : Float) : IsGuarded "fact" (Builtin.factorial v) := by
  rw [Builtin.factorial]
  rcases integral_eq_or "fact" v with h | ⟨n, h⟩
  · rw [h]
    exact isGuarded_domain "fact"
  · rw [h]
    refine isGuarded_ite (fun _ => isGuarded_domain "fact") fun _ => ?_
    refine isGuarded_ite (fun _ => ?_) fun hle => ?_
    · change Binary64.infinity.isNaN = false
      decide +kernel
    · refine isNaN_foldl_mul (fun k hk => factors_finite k ?_) (by decide +kernel)
      have hlt := List.mem_range.mp hk
      omega

theorem isNaN_degrees {v : Float} (hv : v.isNaN = false) :
    (v * (180 / Builtin.pi)).isNaN = false :=
  Binary64.isNaN_mul hv (by decide +kernel) (by decide +kernel)

theorem isNaN_radians {v : Float} (hv : v.isNaN = false) :
    (v * (Builtin.pi / 180)).isNaN = false :=
  Binary64.isNaN_mul hv (by decide +kernel) (by decide +kernel)

/-! ## Operators and calls -/

/-- A constant that is a number, or an action that is guarded on numbers. -/
def ActsGuarded (name : String) : Builtin → Prop
  | .constant v => v.isNaN = false
  | .unary action => ∀ a, a.isNaN = false → ¬ Unguarded name [a] → IsGuarded name (action a)
  | .binary action => ∀ a b, a.isNaN = false → b.isNaN = false → IsGuarded name (action a b)
  | .unaryOrBinary action => ∀ (a : Float) (b : Option Float), a.isNaN = false →
      (∀ x ∈ b, x.isNaN = false) → ¬ Unguarded name (a :: b.toList) → IsGuarded name (action a b)

theorem ite_eq_or {p : Prop} [Decidable p] (err : EvalError) (v : Float) :
    (if p then Except.error err else .ok v) = .error err ∨
      ∃ w, (if p then Except.error err else .ok v) = .ok w := by
  by_cases h : p
  · exact .inl (if_pos h)
  · exact .inr ⟨v, if_neg h⟩

theorem actsGuarded_trigonometric {name : String} (hname : name ∈ ["sin", "cos", "tan"])
    {f : Float → Float} (hf : ∀ v, (f v).isNaN = (v.isNaN || v.isInf)) :
    ActsGuarded name (.unary fun v => .ok (.number (f v))) := by
  intro a ha hguarded
  have hfinite : a.isInf = false :=
    Bool.eq_false_of_not_eq_true fun h => hguarded (.trigonometric hname h)
  exact (hf a).trans (by rw [ha, hfinite, Bool.or_false])

variable [Elementary]

theorem compute_eq_or (op : BinaryOperator) (a b : Float) :
    op.compute a b = .error .divisionByZero ∨ ∃ v, op.compute a b = .ok v := by
  cases op with
  | addition => exact .inr ⟨_, rfl⟩
  | subtraction => exact .inr ⟨_, rfl⟩
  | multiplication => exact .inr ⟨_, rfl⟩
  | division => exact ite_eq_or _ _
  | modulo => exact ite_eq_or _ _
  | exponentiation => exact ite_eq_or _ _

theorem isGuarded_operator (op : BinaryOperator) {a b : Float} (ha : a.isNaN = false)
    (hb : b.isNaN = false) : IsGuarded op.symbol.text ((op.apply a b).map .number) := by
  rw [BinaryOperator.apply, ha, hb]
  rcases compute_eq_or op a b with h | ⟨v, h⟩
  · rw [h]
    exact isGuarded_divisionByZero _
  · rw [h, ok_bind]
    cases hv : v.isNaN with
    | true => exact isGuarded_domain _
    | false => exact hv

variable (hlaws : Elementary.Lawful)

include hlaws

theorem isGuarded_logarithm {name : String} (hname : name ∈ ["log", "ln"]) {v : Float}
    (hv : v.isNaN = false) {base : Option Float} (hbase : ∀ b ∈ base, b.isNaN = false)
    (h : ¬ Unguarded name (v :: base.toList)) :
    IsGuarded name (Builtin.logarithm name v base) := by
  refine isGuarded_ite (fun _ => isGuarded_domain name) fun hpos => ?_
  cases base with
  | none => exact hlaws.isNaN_ln v hv hpos
  | some b =>
      have hb := hbase b rfl
      refine isGuarded_ite (fun _ => isGuarded_domain name) fun hbpos => ?_
      refine isGuarded_ite (fun _ => isGuarded_divisionByZero name) fun hone => ?_
      refine Binary64.isNaN_div (hlaws.isNaN_ln v hv hpos) (hlaws.isNaN_ln b hb hbpos) ?_ ?_
      · rw [hlaws.isInf_ln v hv hpos, hlaws.isInf_ln b hb hbpos]
        rintro ⟨hvinf, hbinf⟩
        rw [Binary64.eq_infinity hvinf hpos, Binary64.eq_infinity hbinf hbpos] at h
        exact h (.logarithm hname)
      · exact Bool.eq_false_of_not_eq_true (mt (hlaws.ln_eq_zero b hb hbpos) hone)

theorem actsGuarded_of_find? {name : String} {b : Builtin} (h : Builtin.find? name = some b) :
    ActsGuarded name b := by
  unfold Builtin.find? at h
  split at h
  all_goals cases h
  · exact actsGuarded_trigonometric (by simp) hlaws.isNaN_sin
  · exact actsGuarded_trigonometric (by simp) hlaws.isNaN_cos
  · exact actsGuarded_trigonometric (by simp) hlaws.isNaN_tan
  · exact fun v _ _ => isGuarded_inverseTrig hlaws.isNaN_asin v
  · exact fun v _ _ => isGuarded_inverseTrig hlaws.isNaN_acos v
  · exact fun v hv _ => (hlaws.isNaN_atan v).trans hv
  · exact fun v b hv hb => isGuarded_logarithm hlaws (by simp) hv hb
  · exact fun v b hv hb => isGuarded_logarithm hlaws (by simp) hv hb
  · exact fun v hv _ => isGuarded_sqrt hv
  · exact fun v hv _ => (hlaws.isNaN_exp v).trans hv
  · change Builtin.pi.isNaN = false
    decide +kernel
  · change Builtin.euler.isNaN = false
    decide +kernel
  · exact fun _ _ _ _ => isGuarded_checked "pow" _
  · exact fun _ _ _ _ => isGuarded_ite (fun _ => isGuarded_divisionByZero "root")
      (fun _ => isGuarded_checked "root" _)
  · exact fun v _ _ => isGuarded_factorial v
  · exact fun v _ _ => isGuarded_truncatedInRadix "bin" 2 v
  · exact fun v _ _ => isGuarded_truncatedInRadix "hex" 16 v
  · exact fun v _ _ => isGuarded_truncatedInRadix "oct" 8 v
  · exact fun v _ _ => isGuarded_integral v
  · exact fun v hv _ => isNaN_degrees hv
  · exact fun v hv _ => isNaN_radians hv

/-- A built-in is called on numbers with a guarded result, unless the call is one of the
unguarded ones or the built-in takes no such call. -/
theorem isGuarded_call {name : String} {b : Builtin} (h : Builtin.find? name = some b)
    {inputs : List Float} (hinputs : ∀ x ∈ inputs, x.isNaN = false)
    (hguarded : ¬ Unguarded name inputs) :
    IsGuarded name (b.call name inputs) ∨ b.call name inputs = .error (.notCallable name) ∨
      ∃ least most, b.arity? = some (least, most) ∧
        ¬ (least ≤ inputs.length ∧ inputs.length ≤ most) ∧
        b.call name inputs = .error (.wrongArity name least most inputs.length) := by
  have hacts := actsGuarded_of_find? hlaws h
  cases b with
  | constant v => exact .inr (.inl rfl)
  | unary action =>
      match inputs with
      | [a] => exact .inl (hacts a (hinputs a (by simp)) hguarded)
      | [] => exact .inr (.inr ⟨1, 1, rfl, by simp, rfl⟩)
      | _ :: _ :: _ => exact .inr (.inr ⟨1, 1, rfl, by simp, rfl⟩)
  | binary action =>
      match inputs with
      | [a, b] => exact .inl (hacts a b (hinputs a (by simp)) (hinputs b (by simp)))
      | [] => exact .inr (.inr ⟨2, 2, rfl, by simp, rfl⟩)
      | [_] => exact .inr (.inr ⟨2, 2, rfl, by simp, rfl⟩)
      | _ :: _ :: _ :: _ => exact .inr (.inr ⟨2, 2, rfl, by simp, rfl⟩)
  | unaryOrBinary action =>
      match inputs with
      | [a] => exact .inl (hacts a none (hinputs a (by simp)) (by simp) hguarded)
      | [a, b] =>
          exact .inl (hacts a (some b) (hinputs a (by simp)) (by simpa using hinputs b) hguarded)
      | [] => exact .inr (.inr ⟨1, 2, rfl, by simp, rfl⟩)
      | _ :: _ :: _ :: _ => exact .inr (.inr ⟨1, 2, rfl, by simp, rfl⟩)

/-- The unguarded calls succeed with a NaN. -/
theorem isNaN_of_unguarded {name : String} {inputs : List Float} (h : Unguarded name inputs) :
    ∃ b v, Builtin.find? name = some b ∧ b.call name inputs = .ok (.number v) ∧
      v.isNaN = true := by
  cases h with
  | @trigonometric v hname hv =>
      have hinf : (v.isNaN || v.isInf) = true := by rw [hv, Bool.or_true]
      simp only [List.mem_cons, List.not_mem_nil, or_false] at hname
      rcases hname with rfl | rfl | rfl
      · exact ⟨_, _, rfl, rfl, (hlaws.isNaN_sin v).trans hinf⟩
      · exact ⟨_, _, rfl, rfl, (hlaws.isNaN_cos v).trans hinf⟩
      · exact ⟨_, _, rfl, rfl, (hlaws.isNaN_tan v).trans hinf⟩
  | logarithm hname =>
      have hinf : (Elementary.ln Binary64.infinity).isInf = true :=
        (hlaws.isInf_ln Binary64.infinity (by decide +kernel) (by decide +kernel)).trans
          (by decide +kernel)
      have hlog : Builtin.logarithm name Binary64.infinity (some Binary64.infinity) =
          .ok (.number (Elementary.ln Binary64.infinity / Elementary.ln Binary64.infinity)) := by
        rw [Builtin.logarithm, if_neg (by decide +kernel), if_neg (by decide +kernel),
          if_neg (by decide +kernel)]
      simp only [List.mem_cons, List.not_mem_nil, or_false] at hname
      rcases hname with rfl | rfl
      · exact ⟨_, _, rfl, hlog, Binary64.isNaN_div_of_isInf hinf hinf⟩
      · exact ⟨_, _, rfl, hlog, Binary64.isNaN_div_of_isInf hinf hinf⟩

end Evaluation
end Calculator
