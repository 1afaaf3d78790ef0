import Calculator.Proofs.Evaluation.Operations
import Calculator.Proofs.Evaluation.Soundness
import Calculator.Proofs.Grammar.Numbers

/-!
# Where a NaN can come from

The numbers of an expression, the constants, the variables and the last answer are what goes
into an evaluation.  If none of them is a NaN, none comes out of it, unless one of the calls
that are performed on the way is unguarded.  The induction is on the derivation; it goes
through the bodies of user functions, whose arguments are results themselves.
-/

namespace Calculator

/-- No variable and not the last answer is a NaN. -/
structure Symbols.HoldsNumbers (s : Symbols) : Prop where
  values : ∀ name v, s.find? name = some (.variable v) → v.isNaN = false
  answer : s.lastAnswer.isNaN = false

namespace Evaluation

variable [Elementary]

/-! ## Calls that are performed -/

/-- A successful evaluation of the expression calls the name with these inputs, by itself or
in the body of a function that it enters. -/
inductive Performs (s : Symbols) (name : String) (inputs : List Float) :
    (argument : Option Float) → Expr → Prop where
  | here {argument : Option Float} {es : List Expr} {entries nesting : Nat}
      (h : Derivable s (.arguments argument es (.ok inputs)) entries nesting) :
      Performs s name inputs argument (.call name es)
  | body {argument : Option Float} {other : String} {es : List Expr} {d : Definition}
      {input : Float} {b : Expr} {entries nesting : Nat}
      (harguments : Derivable s (.arguments argument es (.ok [input])) entries nesting)
      (hbuiltin : Builtin.find? other = none) (hfind : s.find? other = some (.function d))
      (hparse : Expr.parse d.source = .ok b) (h : Performs s name inputs (some input) b) :
      Performs s name inputs argument (.call other es)
  | argument {argument : Option Float} {other : String} {es : List Expr} {e : Expr}
      (hmem : e ∈ es) (h : Performs s name inputs argument e) :
      Performs s name inputs argument (.call other es)
  | operand {argument : Option Float} {op : UnaryOperator} {e : Expr}
      (h : Performs s name inputs argument e) : Performs s name inputs argument (.unary op e)
  | left {argument : Option Float} {op : BinaryOperator} {left right : Expr}
      (h : Performs s name inputs argument left) :
      Performs s name inputs argument (.binary op left right)
  | right {argument : Option Float} {op : BinaryOperator} {left right : Expr}
      (h : Performs s name inputs argument right) :
      Performs s name inputs argument (.binary op left right)

/-- Numbers go into the evaluation of the expression, and no call in it is unguarded. -/
structure TakesNumbers (s : Symbols) (argument : Option Float) (e : Expr) : Prop where
  bound : ∀ x ∈ argument, x.isNaN = false
  numbers : ∀ x, e.HasNumber x → x.isNaN = false
  calls : ∀ name inputs, Performs s name inputs argument e → ¬ Unguarded name inputs

namespace TakesNumbers

variable {s : Symbols} {argument : Option Float}

theorem operand {op : UnaryOperator} {e : Expr} (h : TakesNumbers s argument (.unary op e)) :
    TakesNumbers s argument e :=
  ⟨h.bound, fun x hx => h.numbers x (.operand hx),
    fun name inputs hcall => h.calls name inputs (.operand hcall)⟩

theorem left {op : BinaryOperator} {left right : Expr}
    (h : TakesNumbers s argument (.binary op left right)) : TakesNumbers s argument left :=
  ⟨h.bound, fun x hx => h.numbers x (.left hx),
    fun name inputs hcall => h.calls name inputs (.left hcall)⟩

theorem right {op : BinaryOperator} {left right : Expr}
    (h : TakesNumbers s argument (.binary op left right)) : TakesNumbers s argument right :=
  ⟨h.bound, fun x hx => h.numbers x (.right hx),
    fun name inputs hcall => h.calls name inputs (.right hcall)⟩

theorem arguments {name : String} {es : List Expr} (h : TakesNumbers s argument (.call name es)) :
    ∀ e ∈ es, TakesNumbers s argument e :=
  fun _ hmem => ⟨h.bound, fun x hx => h.numbers x (.argument hmem hx),
    fun name inputs hcall => h.calls name inputs (.argument hmem hcall)⟩

theorem body {name : String} {es : List Expr} (h : TakesNumbers s argument (.call name es))
    {entries nesting : Nat} {input : Float} {d : Definition} {b : Expr}
    (harguments : Derivable s (.arguments argument es (.ok [input])) entries nesting)
    (hinput : input.isNaN = false) (hbuiltin : Builtin.find? name = none)
    (hfind : s.find? name = some (.function d)) (hparse : Expr.parse d.source = .ok b) :
    TakesNumbers s (some input) b :=
  ⟨by simpa using hinput, fun _ hx => Grammar.isNaN_of_parse hparse hx,
    fun name inputs hcall =>
      h.calls name inputs (.body harguments hbuiltin hfind hparse hcall)⟩

end TakesNumbers

/-! ## Evaluation -/

/-- A success gives numbers where it takes numbers. -/
def Judgement.GivesNumbers (s : Symbols) : Judgement → Prop
  | .expression argument e result => TakesNumbers s argument e →
      ∀ v, result = .ok v → v.toFloat.isNaN = false
  | .arguments argument es result => (∀ e ∈ es, TakesNumbers s argument e) →
      ∀ inputs, result = .ok inputs → ∀ x ∈ inputs, x.isNaN = false
  | .call name inputs result => (∀ x ∈ inputs, x.isNaN = false) → ¬ Unguarded name inputs →
      (∀ input d b, inputs = [input] → Builtin.find? name = none →
        s.find? name = some (.function d) → Expr.parse d.source = .ok b →
          TakesNumbers s (some input) b) →
      ∀ v, result = .ok v → v.toFloat.isNaN = false
  | .entry d input result => (∀ b, Expr.parse d.source = .ok b → TakesNumbers s (some input) b) →
      ∀ v, result = .ok v → v.toFloat.isNaN = false

variable {s : Symbols}

/-- A name stands for a number. -/
theorem Resolves.isNaN (hlaws : Elementary.Lawful) (hs : s.HoldsNumbers)
    {argument : Option Float} (hargument : ∀ x ∈ argument, x.isNaN = false) {name : String}
    {v : Float} (h : Resolves s argument name (.ok v)) : v.isNaN = false := by
  cases h with
  | bound h => exact hargument v h
  | constant _ h => exact actsGuarded_of_find? hlaws h
  | userVariable _ _ h => exact hs.values _ v h
  | lastAnswer => exact hs.answer

theorem Derivable.givesNumbers (hlaws : Elementary.Lawful) (hs : s.HoldsNumbers) {j : Judgement}
    {entries nesting : Nat} (h : Derivable s j entries nesting) : j.GivesNumbers s := by
  induction h with
  | number argument v =>
      rintro htakes _ ⟨⟩
      exact htakes.numbers v .here
  | @identifier argument name result h =>
      intro htakes v hv
      cases result with
      | error err => cases hv
      | ok x =>
          cases hv
          exact h.isNaN hlaws hs htakes.bound
  | @unary argument op e v _ _ _ ih =>
      rintro htakes _ ⟨⟩
      have hv := ih htakes.operand v rfl
      cases op with
      | negative => exact Binary64.isNaN_neg hv
      | positive => exact hv
  | @binary argument op left right a b _ _ _ _ _ _ ihleft ihright =>
      intro htakes v hv
      have hguarded := isGuarded_operator op (ihleft htakes.left a rfl) (ihright htakes.right b rfl)
      rw [hv] at hguarded
      exact hguarded
  | call harguments _ iharguments ihcall =>
      intro htakes v hv
      have hinputs := iharguments htakes.arguments _ rfl
      refine ihcall hinputs (htakes.calls _ _ (.here harguments)) ?_ v hv
      rintro input d b rfl hbuiltin hfind hparse
      exact htakes.body harguments (hinputs input (by simp)) hbuiltin hfind hparse
  | noArguments argument =>
      rintro - _ ⟨⟩
      simp
  | @moreArguments argument e es v inputs _ _ _ _ _ _ ihfirst ihrest =>
      rintro htakes _ ⟨⟩
      obtain ⟨hfirst, hrest⟩ := List.forall_mem_cons.mp htakes
      exact List.forall_mem_cons.mpr ⟨ihfirst hfirst v rfl, ihrest hrest inputs rfl⟩
  | builtinCall h =>
      intro hinputs hguarded _ v hv
      rcases isGuarded_call hlaws h hinputs hguarded with hcall | hcall | ⟨_, _, -, -, hcall⟩
      · rw [hv] at hcall
        exact hcall
      · rw [hv] at hcall
        cases hcall
      · rw [hv] at hcall
        cases hcall
  | userCall hbuiltin hfind _ ih =>
      intro _ _ hbody v hv
      exact ih (fun b hparse => hbody _ _ b rfl hbuiltin hfind hparse) v hv
  | body hparse _ ih =>
      intro htakes v hv
      exact ih (htakes _ hparse) v hv
  | unaryError | binaryLeftError | binaryRightError | callError | firstArgumentError
  | moreArgumentsError | brokenBody =>
      intro _ _ hv
      cases hv
  | wrongArity | variableCall | answerCall | undefinedCall =>
      intro _ _ _ _ hv
      cases hv

/-- A NaN that comes out of numbers comes from an unguarded call.  All other operations on
numbers are guarded: each gives a number, or the error that it has none. -/
theorem nan_only_from_unguarded_calls (hlaws : Elementary.Lawful) :
    (∀ s : Symbols, s.HoldsNumbers → ∀ text e v, Expr.parse text = .ok e →
      s.evaluate e = .ok v → v.toFloat.isNaN = true →
        ∃ name inputs, Performs s name inputs none e ∧ Unguarded name inputs) ∧
    (∀ (op : BinaryOperator) a b, a.isNaN = false → b.isNaN = false →
      IsGuarded op.symbol.text ((op.apply a b).map .number)) ∧
    (∀ name b inputs, Builtin.find? name = some b → (∀ x ∈ inputs, x.isNaN = false) →
      ¬ Unguarded name inputs →
        IsGuarded name (b.call name inputs) ∨ b.call name inputs = .error (.notCallable name) ∨
          ∃ least most, b.arity? = some (least, most) ∧
            ¬ (least ≤ inputs.length ∧ inputs.length ≤ most) ∧
            b.call name inputs = .error (.wrongArity name least most inputs.length)) ∧
    (∀ name inputs, Unguarded name inputs →
      ∃ b v, Builtin.find? name = some b ∧ b.call name inputs = .ok (.number v) ∧
        v.isNaN = true) := by
  refine ⟨?_, fun op a b ha hb => isGuarded_operator op ha hb,
    fun _ _ _ h hinputs hguarded => isGuarded_call hlaws h hinputs hguarded,
    fun _ _ h => isNaN_of_unguarded hlaws h⟩
  intro s hs text e v hparse heval hnan
  by_contra hnone
  have htakes : TakesNumbers s none e := by
    refine ⟨by simp, fun x hx => Grammar.isNaN_of_parse hparse hx, ?_⟩
    intro name inputs hcall hunguarded
    exact hnone ⟨name, inputs, hcall, hunguarded⟩
  obtain ⟨_, _, -, -, hderived⟩ := isJustified s maxNesting heval rfl
  have hnumber : v.toFloat.isNaN = false := hderived.givesNumbers hlaws hs htakes v rfl
  rw [hnumber] at hnan
  cases hnan

/-! ## Functions that keep the promises -/

/-- A logarithm that tells infinity and one from all the rest. -/
def coarseLogarithm (infinite one : Bool) : Float :=
  if infinite then Binary64.infinity else if one then 0 else 1

/-- Functions that are right at zero, at one and at the infinities. -/
@[reducible]
def coarse : Elementary where
  sin v := if v.isNaN || v.isInf then Binary64.nan else 0
  cos v := if v.isNaN || v.isInf then Binary64.nan else 1
  tan v := if v.isNaN || v.isInf then Binary64.nan else 0
  asin _ := 0
  acos _ := 0
  atan v := if v.isNaN then Binary64.nan else 0
  exp v := if v.isNaN then Binary64.nan else 1
  ln v := coarseLogarithm v.isInf (v == 1)
  pow _ _ := 1

omit [Elementary] in
theorem lawful_coarse : @Elementary.Lawful coarse := by
  let _ := coarse
  have hzero : ∀ b : Bool, (if b then Binary64.nan else (0 : Float)).isNaN = b := by
    decide +kernel
  have hone : ∀ b : Bool, (if b then Binary64.nan else (1 : Float)).isNaN = b := by
    decide +kernel
  have hnumber : ∀ infinite one, (coarseLogarithm infinite one).isNaN = false := by
    decide +kernel
  have hinfinite : ∀ infinite one, (coarseLogarithm infinite one).isInf = infinite := by
    decide +kernel
  have hroot : ∀ infinite one, (coarseLogarithm infinite one == 0) = true → one = true := by
    decide +kernel
  exact
    { isNaN_sin := fun v => hzero (v.isNaN || v.isInf)
      isNaN_cos := fun v => hone (v.isNaN || v.isInf)
      isNaN_tan := fun v => hzero (v.isNaN || v.isInf)
      isNaN_asin := fun _ _ _ => hzero false
      isNaN_acos := fun _ _ _ => hzero false
      isNaN_atan := fun v => hzero v.isNaN
      isNaN_exp := fun v => hone v.isNaN
      isNaN_ln := fun _ _ _ => hnumber _ _
      isInf_ln := fun _ _ _ => hinfinite _ _
      ln_eq_zero := fun _ _ _ => hroot _ _ }

omit [Elementary] in
theorem parse_sine_of_infinity :
    Expr.parse "sin(1e999)" = .ok (.call "sin" [.number Binary64.infinity]) := by
  have hscan : Token.scan "sin(1e999)".toList =
      ⟨[.identifier "sin", .openParen, .number "1e999", .closeParen], none⟩ :=
    Token.scan_of_first? (by decide) (by decide) rfl <|
      Token.scan_of_first? (by decide) (by decide) rfl <|
      Token.scan_of_first? (by decide) (by decide) rfl <|
      Token.scan_of_first? (by decide) (by decide) rfl Token.scan_nil
  rw [Expr.parse, hscan]
  rfl

omit [Elementary] in
theorem evaluate_sine_of_infinity :
    @Symbols.evaluate coarse {} (.call "sin" [.number Binary64.infinity]) =
      .ok (.number Binary64.nan) := by
  rfl

omit [Elementary] in
theorem holdsNumbers_new : ({} : Symbols).HoldsNumbers where
  values := by
    intro name v h
    cases h
  answer := by
    change (0 : Float).isNaN = false
    decide +kernel

omit [Elementary] in
theorem nan_from_sine_of_infinity :
    let _ := coarse
    Elementary.Lawful ∧ ({} : Symbols).HoldsNumbers ∧
      Expr.parse "sin(1e999)" = .ok (.call "sin" [.number Binary64.infinity]) ∧
      ({} : Symbols).evaluate (.call "sin" [.number Binary64.infinity]) =
        .ok (.number Binary64.nan) ∧
      ∃ name inputs,
        Performs {} name inputs none (.call "sin" [.number Binary64.infinity]) ∧
          Unguarded name inputs := by
  intro _
  obtain ⟨hnan, -⟩ := nan_only_from_unguarded_calls lawful_coarse
  have hcall := hnan {} holdsNumbers_new "sin(1e999)" _ _ parse_sine_of_infinity
    evaluate_sine_of_infinity (by decide +kernel)
  exact ⟨lawful_coarse, holdsNumbers_new, parse_sine_of_infinity, evaluate_sine_of_infinity, hcall⟩

omit [Elementary] in
theorem not_forall_evaluate_number :
    let _ := coarse
    Elementary.Lawful ∧
      ¬ ∀ s : Symbols, s.HoldsNumbers → ∀ text e v, Expr.parse text = .ok e →
        s.evaluate e = .ok v → v.toFloat.isNaN = false := by
  intro _
  refine ⟨lawful_coarse, fun hall => ?_⟩
  have hnumber := hall {} holdsNumbers_new "sin(1e999)" _ _ parse_sine_of_infinity
    evaluate_sine_of_infinity
  exact absurd hnumber (by decide +kernel)

end Evaluation
end Calculator
