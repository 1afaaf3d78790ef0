import Calculator.Proofs.Grammar.Definitions
import Calculator.Proofs.Support.Computation

/-!
# The loops over the frames

Every loop over the frames applies the operators on top, up to a frame where it
stops, and then does one thing that is its own.  The first part is the same for
all of them: `reduceAll`.  Where it stops is a matter of precedence, which is
stated here as a comparison of the categories of the grammar.
-/

namespace Calculator
namespace Grammar

open Support

/-! ## Precedences as ranks

An operator that waits has read all its operands but the last.  Whether it is
applied before an arriving operator is a comparison of categories. -/

/-- The category of the phrases that an operator builds. -/
def resultOf : Operator → Category
  | .unary _ => .unary
  | .binary b => result b

/-- The category of the last operand of an operator. -/
def lastOperand : Operator → Category
  | .unary _ => .unary
  | .binary b => rightOperand b

theorem yieldsTo_eq_true_iff {op : Operator} {b : BinaryOperator} :
    Yard.yieldsTo op b = true ↔ (leftOperand b).rank ≤ (resultOf op).rank := by
  cases op with
  | unary op => cases b <;> cases op <;> decide
  | binary b' => cases b <;> cases b' <;> decide

theorem yieldsTo_eq_false_iff {op : Operator} {b : BinaryOperator} :
    Yard.yieldsTo op b = false ↔ (lastOperand op).rank ≤ (result b).rank := by
  cases op with
  | unary op => cases b <;> cases op <;> decide
  | binary b' => cases b <;> cases b' <;> decide

theorem result_le_leftOperand (b : BinaryOperator) :
    (result b).rank ≤ (leftOperand b).rank := by
  cases b <;> decide

theorem leftOperand_le_lastOperand
    {op : Operator} {b : BinaryOperator}
    (h : (leftOperand b).rank ≤ (resultOf op).rank) :
    (leftOperand b).rank ≤ (lastOperand op).rank := by
  cases op with
  | unary _ => exact h
  | binary b' =>
      revert h
      cases b <;> cases b' <;> decide

/-! ## Frames -/

/-- The frames of waiting operators. -/
def waiting (ops : List Operator) : List Frame :=
  ops.map .operator

/-- The operator that waits on top of the frames, if there is one. -/
def topOperator? : List Frame → Option Operator
  | .operator op :: _ => some op
  | _ => none

/-- The frames do not let go of an operator when `b` arrives. -/
def Holds (frames : List Frame) (b : BinaryOperator) : Prop :=
  ∀ op, topOperator? frames = some op → Yard.yieldsTo op b = false

/-! ## Applying what waits on top -/

/-- Applies operators in order to the operands on top. -/
def reduceAll (ops : List Operator) (operands : List Operand) :
    Except EvalError (List Operand) :=
  ops.foldlM (fun operands op => Yard.reduce op operands) operands

@[simp]
theorem reduceAll_nil (operands : List Operand) :
    reduceAll [] operands = .ok operands := rfl

theorem reduceAll_cons (op : Operator) (ops : List Operator) (operands : List Operand) :
    reduceAll (op :: ops) operands = Yard.reduce op operands >>= reduceAll ops := rfl

theorem reduceAll_append (ops ops' : List Operator) (operands : List Operand) :
    reduceAll (ops ++ ops') operands = reduceAll ops operands >>= reduceAll ops' :=
  List.foldlM_append

/-- Frames split at the first one that is no operator with the property `p`. -/
theorem exists_waiting_append (p : Operator → Bool) (frames : List Frame) :
    ∃ ops rest, frames = waiting ops ++ rest ∧ (∀ op ∈ ops, p op = true) ∧
      ∀ op, topOperator? rest = some op → p op = false := by
  induction frames with
  | nil => exact ⟨[], [], rfl, by simp, by simp [topOperator?]⟩
  | cons frame frames ih =>
      cases frame with
      | paren => exact ⟨[], .paren :: frames, rfl, by simp, by simp [topOperator?]⟩
      | call name count =>
          exact ⟨[], .call name count :: frames, rfl, by simp, by simp [topOperator?]⟩
      | operator op =>
          cases hp : p op with
          | false =>
              exact ⟨[], .operator op :: frames, rfl, by simp, by simp [topOperator?, hp]⟩
          | true =>
              obtain ⟨ops, rest, rfl, hops, hrest⟩ := ih
              exact ⟨op :: ops, rest, rfl, by simpa [hp] using hops, hrest⟩

/-- Frames split at the first one that is no operator. -/
theorem exists_waiting_append_of_none (frames : List Frame) :
    ∃ ops rest, frames = waiting ops ++ rest ∧ topOperator? rest = none := by
  obtain ⟨ops, rest, heq, -, hrest⟩ := exists_waiting_append (fun _ => true) frames
  refine ⟨ops, rest, heq, Option.eq_none_iff_forall_ne_some.mpr ?_⟩
  intro op hop
  exact absurd (hrest op hop) (by simp)

theorem addBinary_waiting_append
    {b : BinaryOperator} {ops : List Operator} {rest : List Frame}
    (hops : ∀ op ∈ ops, Yard.yieldsTo op b = true) (hrest : Holds rest b)
    (operands : List Operand) :
    Yard.addBinary b (waiting ops ++ rest) operands =
      reduceAll ops operands >>= fun operands =>
        .ok ⟨operands, .operator (.binary b) :: rest⟩ := by
  induction ops generalizing operands with
  | nil =>
      cases rest with
      | nil => rfl
      | cons frame rest =>
          cases frame with
          | operator op =>
              have hop : Yard.yieldsTo op b = false := hrest op rfl
              simp [waiting, Yard.addBinary, hop]
          | paren => rfl
          | call name count => rfl
  | cons op ops ih =>
      have hop : Yard.yieldsTo op b = true := hops op (by simp)
      have htail : ∀ op ∈ ops, Yard.yieldsTo op b = true :=
        fun op h => hops op (List.mem_cons_of_mem _ h)
      rw [reduceAll_cons, bind_assoc]
      simp only [waiting, List.map_cons, List.cons_append, Yard.addBinary, hop, if_true]
      exact bind_congr (ih htail)

/-- What a loop that applies the operators on top does, whatever it does below
them. -/
theorem loop_waiting_append
    {α : Type} {loop : List Frame → List Operand → Except EvalError α}
    (hloop : ∀ op rest operands,
      loop (.operator op :: rest) operands = Yard.reduce op operands >>= loop rest)
    (ops : List Operator) (rest : List Frame) (operands : List Operand) :
    loop (waiting ops ++ rest) operands = reduceAll ops operands >>= loop rest := by
  induction ops generalizing operands with
  | nil => rfl
  | cons op ops ih =>
      rw [reduceAll_cons, bind_assoc]
      exact (hloop op _ operands).trans (bind_congr ih)

theorem addCloseParen_waiting_append
    (ops : List Operator) (rest : List Frame) (operands : List Operand) :
    Yard.addCloseParen (waiting ops ++ rest) operands =
      reduceAll ops operands >>= Yard.addCloseParen rest :=
  loop_waiting_append (fun _ _ _ => rfl) ops rest operands

theorem addComma_waiting_append
    (ops : List Operator) (rest : List Frame) (operands : List Operand) :
    Yard.addComma (waiting ops ++ rest) operands =
      reduceAll ops operands >>= Yard.addComma rest :=
  loop_waiting_append (fun _ _ _ => rfl) ops rest operands

theorem finish_waiting_append
    (ops : List Operator) (rest : List Frame) (operands : List Operand) :
    Yard.finish (waiting ops ++ rest) operands =
      reduceAll ops operands >>= Yard.finish rest :=
  loop_waiting_append (fun _ _ _ => rfl) ops rest operands

/-! ## Closing a call -/

/-- A tree as an operand, with its height. -/
def operandOf (t : Expr) : Operand :=
  ⟨t, t.height⟩

/-- The operands that the arguments of a call become, the last one on top. -/
def argumentOperands (arguments : List (List Token × Expr)) : List Operand :=
  (arguments.map fun a => operandOf a.2).reverse

theorem foldl_max_height (ts : List Expr) (n : Nat) :
    (ts.map Expr.height).foldl max n = max n (Expr.maxHeight ts) := by
  induction ts generalizing n with
  | nil => simp [Expr.maxHeight]
  | cons t ts ih =>
      rw [List.map_cons, List.foldl_cons, ih, Expr.maxHeight, Nat.max_assoc]

/-- The operands of all arguments of a call make up the call. -/
theorem closeCall_argumentOperands
    (name : String) (arguments : List (List Token × Expr)) (frames : List Frame)
    (operands : List Operand) :
    Yard.closeCall name arguments.length frames (argumentOperands arguments ++ operands) =
      Yard.pushTree (.call name (arguments.map Prod.snd))
          (Expr.call name (arguments.map Prod.snd)).height operands >>= fun operands =>
        .ok ⟨operands, frames⟩ := by
  have hlength : (argumentOperands arguments).length = arguments.length := by
    simp [argumentOperands]
  have htake : (argumentOperands arguments ++ operands).take arguments.length =
      argumentOperands arguments := by
    rw [← hlength, List.take_left]
  have hdrop : (argumentOperands arguments ++ operands).drop arguments.length = operands := by
    rw [← hlength, List.drop_left]
  have hheights : (argumentOperands arguments).reverse.map Operand.height =
      (arguments.map Prod.snd).map Expr.height := by
    simp [argumentOperands, operandOf]
  have htrees : (argumentOperands arguments).reverse.map Operand.tree =
      arguments.map Prod.snd := by
    simp [argumentOperands, operandOf]
  have hnot : ¬ (argumentOperands arguments ++ operands).length < arguments.length := by
    rw [List.length_append, hlength]
    omega
  rw [Yard.closeCall, if_neg hnot, htake, hdrop]
  simp only [hheights, htrees, foldl_max_height, Nat.zero_max, Expr.height]

end Grammar
end Calculator
