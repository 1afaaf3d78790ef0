import Calculator.Evaluation
import Calculator.Proofs.Access.Parse

/-!
# Calls by argument lists

The table of built-in functions gives to each name the numbers of arguments that it admits and an
action, which picks its arguments from the list by their positions.  The number of arguments is
tested before the action is taken, so that every argument that is picked is there.  The same
goes for the single argument of a user function.
-/

namespace Calculator
namespace Access

/-! ## The table -/

/-- A line of the table: a constant, or an action with the least and the greatest number of
arguments. -/
inductive Row where
  | constant (v : Float)
  | function (least greatest : Nat) (action : List Float → Checked Value)

/-- The argument at a position. -/
def argument? (arguments : List Float) (k : Nat) : Checked Float :=
  .access arguments[k]?

namespace Row

def unary (action : List Float → Checked Value) : Row :=
  function 1 1 action

def binary (action : List Float → Checked Value) : Row :=
  function 2 2 action

/-- A call under a name, in which the number of arguments comes first. -/
def call (row : Row) (name : String) (arguments : List Float) : Checked Value :=
  match row with
  | constant _ => .of (.error (.notCallable name))
  | function least greatest action =>
    if least ≤ arguments.length ∧ arguments.length ≤ greatest then action arguments
    else .of (.error (.wrongArity name least greatest arguments.length))

/-- A line of the table does what the built-in does. -/
def Agrees (row : Row) (b : Builtin) : Prop :=
  ∀ name arguments, row.call name arguments = .of (b.call name arguments)

theorem agrees_constant (v : Float) : (constant v).Agrees (.constant v) := by
  intro name arguments
  cases arguments <;> rfl

theorem agrees_unary {action : List Float → Checked Value} {f : Float → Except EvalError Value}
    (h : ∀ a, action [a] = .of (f a)) : (unary action).Agrees (.unary f) := by
  intro name arguments
  match arguments with
  | [] => rfl
  | [a] => exact h a
  | _ :: _ :: rest => rw [unary, call, if_neg (by simp)]; rfl

theorem agrees_binary {action : List Float → Checked Value}
    {f : Float → Float → Except EvalError Value} (h : ∀ a b, action [a, b] = .of (f a b)) :
    (binary action).Agrees (.binary f) := by
  intro name arguments
  match arguments with
  | [] => rfl
  | [_] => rfl
  | [a, b] => exact h a b
  | _ :: _ :: _ :: rest => rw [binary, call, if_neg (by simp)]; rfl

theorem agrees_unaryOrBinary {action : List Float → Checked Value}
    {f : Float → Option Float → Except EvalError Value} (hone : ∀ a, action [a] = .of (f a none))
    (htwo : ∀ a b, action [a, b] = .of (f a (some b))) :
    (function 1 2 action).Agrees (.unaryOrBinary f) := by
  intro name arguments
  match arguments with
  | [] => rfl
  | [a] => exact hone a
  | [a, b] => exact htwo a b
  | _ :: _ :: _ :: rest => rw [call, if_neg (by simp)]; rfl

end Row

section Table

open Builtin Row

def squareRoot? (arguments : List Float) : Checked Value := do
  if (← argument? arguments 0) < 0 then .of (.error (.domain "sqrt"))
  else .of (.ok (.number (← argument? arguments 0).sqrt))

theorem squareRoot?_one (a : Float) :
    squareRoot? [a] = .of (if a < 0 then .error (.domain "sqrt") else .ok (.number a.sqrt)) := by
  change (if a < 0 then _ else _) = _
  split_ifs
  · rfl
  · rfl

variable [Elementary]

/-- The logarithm of the first argument; there may be a second one. -/
def logarithm? (name : String) (arguments : List Float) : Checked Value := do
  let v ← argument? arguments 0
  .of (logarithm name v arguments[1]?)

theorem logarithm?_one (name : String) (a : Float) :
    logarithm? name [a] = .of (logarithm name a none) :=
  rfl

theorem logarithm?_two (name : String) (a b : Float) :
    logarithm? name [a, b] = .of (logarithm name a (some b)) :=
  rfl

def root? (arguments : List Float) : Checked Value := do
  if (← argument? arguments 1) == 0 then .of (.error .divisionByZero)
  else
    .of (checked "root"
      (Elementary.pow (← argument? arguments 0) (1 / (← argument? arguments 1))))

theorem root?_two (a b : Float) :
    root? [a, b] = .of (if b == 0 then .error .divisionByZero
      else checked "root" (Elementary.pow a (1 / b))) := by
  change (if (b == 0) = true then _ else _) = _
  split_ifs
  · rfl
  · rfl

/-- The built-in names. -/
def table : List (String × Row) := [
  ("sin", unary fun args => do .of (.ok (.number (Elementary.sin (← argument? args 0))))),
  ("cos", unary fun args => do .of (.ok (.number (Elementary.cos (← argument? args 0))))),
  ("tan", unary fun args => do .of (.ok (.number (Elementary.tan (← argument? args 0))))),
  ("asin", unary fun args => do .of (inverseTrig "asin" Elementary.asin (← argument? args 0))),
  ("acos", unary fun args => do .of (inverseTrig "acos" Elementary.acos (← argument? args 0))),
  ("atan", unary fun args => do .of (.ok (.number (Elementary.atan (← argument? args 0))))),
  ("log", function 1 2 (logarithm? "log")),
  ("ln", function 1 2 (logarithm? "ln")),
  ("sqrt", unary squareRoot?),
  ("exp", unary fun args => do .of (.ok (.number (Elementary.exp (← argument? args 0))))),
  ("pi", constant pi),
  ("e", constant euler),
  ("pow", binary fun args => do
    .of (checked "pow" (Elementary.pow (← argument? args 0) (← argument? args 1)))),
  ("root", binary root?),
  ("fact", unary fun args => do .of (factorial (← argument? args 0))),
  ("bin", unary fun args => do .of (truncatedInRadix "bin" 2 (← argument? args 0))),
  ("hex", unary fun args => do .of (truncatedInRadix "hex" 16 (← argument? args 0))),
  ("oct", unary fun args => do .of (truncatedInRadix "oct" 8 (← argument? args 0))),
  ("dec", unary fun args => do
    .of ((integral "dec" (← argument? args 0)).map (Value.integer · 10))),
  ("deg", unary fun args => do .of (.ok (.number ((← argument? args 0) * (180 / pi))))),
  ("rad", unary fun args => do .of (.ok (.number ((← argument? args 0) * (pi / 180)))))]

/-- Every line of the table does what the built-in of its name does. -/
theorem exists_agrees_of_mem {name : String} {row : Row} (h : (name, row) ∈ table) :
    ∃ b, Builtin.find? name = some b ∧ row.Agrees b := by
  have hall : ∀ entry ∈ table, ∃ b, Builtin.find? entry.1 = some b ∧ entry.2.Agrees b := by
    simp only [table, List.forall_mem_cons, List.not_mem_nil, false_imp_iff, implies_true, and_true]
    and_intros
    all_goals first
      | exact ⟨_, rfl, agrees_constant _⟩
      | exact ⟨_, rfl, agrees_unary fun _ => rfl⟩
      | exact ⟨_, rfl, agrees_unary squareRoot?_one⟩
      | exact ⟨_, rfl, agrees_binary fun _ _ => rfl⟩
      | exact ⟨_, rfl, agrees_binary root?_two⟩
      | exact ⟨_, rfl, agrees_unaryOrBinary (logarithm?_one _) (logarithm?_two _)⟩
  exact hall _ h

theorem exists_row_of_find? {name : String} {b : Builtin} (h : Builtin.find? name = some b) :
    ∃ row, table.lookup name = some row := by
  unfold Builtin.find? at h
  split at h
  case h_22 => cases h
  all_goals exact ⟨_, rfl⟩

/-- The table has the names that are built in, and no others. -/
theorem lookup_table (name : String) :
    (∃ row b, table.lookup name = some row ∧ Builtin.find? name = some b ∧ row.Agrees b) ∨
      (table.lookup name = none ∧ Builtin.find? name = none) := by
  cases hrow : table.lookup name with
  | some row =>
      obtain ⟨front, back, htable, -⟩ := List.lookup_eq_some_iff.mp hrow
      have hmem : (name, row) ∈ table := by
        rw [htable]
        exact List.mem_append_cons_self
      obtain ⟨b, hb, hagrees⟩ := exists_agrees_of_mem hmem
      exact .inl ⟨row, b, rfl, hb, hagrees⟩
  | none =>
      refine .inr ⟨rfl, ?_⟩
      cases hb : Builtin.find? name with
      | none => rfl
      | some b =>
          obtain ⟨row, hsome⟩ := exists_row_of_find? hb
          rw [hrow] at hsome
          cases hsome

end Table

/-! ## Evaluation -/

section Evaluation

/-- Enters a user function; its text is parsed. -/
def enter? (evaluate : Scope → Expr → Checked Value) (scope : Scope) (name : String)
    (d : Definition) (input : Float) : Checked Value :=
  match scope.callsLeft with
  | 0 => .of (.error (.recursionLimit name))
  | callsLeft + 1 => do
    evaluate { scope with argument := some input, callsLeft } (← parse? d.source)

variable [Elementary]

/-- Calls a name with evaluated arguments. -/
def call? (evaluate : Scope → Expr → Checked Value) (scope : Scope) (name : String)
    (arguments : List Float) : Checked Value :=
  match table.lookup name with
  | some row => row.call name arguments
  | none =>
    match scope.symbols.find? name with
    | some (.function d) =>
      if arguments.length ≠ 1 then .of (.error (.wrongArity name 1 1 arguments.length))
      else do enter? evaluate scope name d (← argument? arguments 0)
    | entry =>
      if entry.isSome || name == lastAnswerName then .of (.error (.notCallable name))
      else .of (.error (.undefined name))

/-- Evaluates an expression with the given number of nested expressions left. -/
def evaluate? : (levels : Nat) → Scope → Expr → Checked Value
  | 0, _, _ => .of (.error .tooDeep)
  | levels + 1, scope, expression =>
    match expression with
    | .number v => .of (.ok (.number v))
    | .identifier name => .of ((scope.resolve name).map .number)
    | .unary op operand => do
      let v ← evaluate? levels scope operand
      .of (.ok (.number (op.apply v.toFloat)))
    | .binary op left right => do
      let a ← evaluate? levels scope left
      let b ← evaluate? levels scope right
      .of ((op.apply a.toFloat b.toFloat).map .number)
    | .call name arguments => do
      let values ← arguments.mapM fun argument => Value.toFloat <$> evaluate? levels scope argument
      call? (evaluate? levels) scope name values

/-- Applies a user function to a number. -/
def applyDefinition? (s : Symbols) (name : String) (d : Definition) (input : Float) :
    Checked Value :=
  enter? (evaluate? maxNesting) s.outerScope name d input

/-! ## Evaluation in range -/

section Callee

variable {evaluateChecked : Scope → Expr → Checked Value}
  {evaluate : Scope → Expr → Except EvalError Value}
  (hevaluate : ∀ scope e, evaluateChecked scope e = .of (evaluate scope e))

include hevaluate

omit [Elementary] in
theorem enter?_eq (scope : Scope) (name : String) (d : Definition) (input : Float) :
    enter? evaluateChecked scope name d input = .of (scope.enter evaluate name d input) := by
  rw [enter?, Scope.enter]
  cases scope.callsLeft with
  | zero => rfl
  | succ callsLeft =>
      dsimp only
      rw [parse?_eq, ← d.body_eq]
      exact Checked.bind_of fun body => hevaluate _ body

theorem call?_eq (scope : Scope) (name : String) (arguments : List Float) :
    call? evaluateChecked scope name arguments = .of (scope.call evaluate name arguments) := by
  rw [call?, Scope.call]
  rcases lookup_table name with ⟨row, b, hrow, hb, hagrees⟩ | ⟨hrow, hb⟩
  · rw [hrow, hb]
    exact hagrees name arguments
  · rw [hrow, hb]
    dsimp only
    cases scope.symbols.find? name with
    | none =>
        cases name == lastAnswerName <;> rfl
    | some entry =>
        match entry, arguments with
        | .variable v, _ => rfl
        | .function d, [] => rfl
        | .function d, [a] => exact enter?_eq hevaluate scope name d a
        | .function d, _ :: _ :: rest =>
            dsimp only
            rw [if_pos (by simp)]

end Callee

/-- Every access of an evaluation is in range. -/
theorem evaluate?_eq (levels : Nat) (scope : Scope) (e : Expr) :
    evaluate? levels scope e = .of (scope.evaluate levels e) := by
  induction levels generalizing scope e with
  | zero => rfl
  | succ levels ih =>
      cases e with
      | number v => rfl
      | identifier name => rfl
      | unary op operand =>
          rw [evaluate?, Scope.evaluate, ih]
          exact Checked.bind_of fun _ => rfl
      | binary op left right =>
          rw [evaluate?, Scope.evaluate, ih, ih]
          exact Checked.bind_of fun _ => Checked.bind_of fun _ => rfl
      | call name arguments =>
          have hargument : ∀ argument, Value.toFloat <$> evaluate? levels scope argument =
              .of ((scope.evaluate levels argument).map Value.toFloat) := by
            intro argument
            rw [ih, Checked.map_of]
          rw [evaluate?, Scope.evaluate, Checked.mapM_of hargument]
          exact Checked.bind_of fun values => call?_eq ih scope name values

theorem applyDefinition?_eq (s : Symbols) (name : String) (d : Definition) (input : Float) :
    applyDefinition? s name d input = .of (s.apply name d input) :=
  enter?_eq (evaluate?_eq maxNesting) s.outerScope name d input

end Evaluation

end Access
end Calculator
