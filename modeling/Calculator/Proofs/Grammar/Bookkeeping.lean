import Calculator.Proofs.Grammar.Soundness
import Mathlib.Algebra.GroupWithZero.Nat

/-!
# The operands are accounted for

How many operands wait is decided by the frames: one for each binary operator, the
finished arguments of each open call, and one more where an operator has to come
next.  The same count holds inside the loops over the frames.  No operation therefore
finds fewer operands than it takes, and a text ends abruptly only where an operand is
missing at its end.
-/

namespace Calculator

/-- The operands that an operator is applied to. -/
def Operator.arity : Operator → Nat
  | unary _ => 1
  | binary _ => 2

namespace Frame

/-- Whether a frame is a binary operator, whose left operand waits below. -/
def isBinary : Frame → Bool
  | operator (.binary _) => true
  | _ => false

/-- The arguments of an open call in front of the one that is read. -/
def finishedArguments : Frame → Nat
  | call _ count => count - 1
  | _ => 0

/-- Whether a frame waits for a closing parenthesis. -/
def isOpen : Frame → Bool
  | operator _ => false
  | paren => true
  | call _ _ => true

end Frame

namespace Grammar

open Support

/-- The operands that wait below the one that is read last. -/
def heldOperands (frames : List Frame) : Nat :=
  frames.countP Frame.isBinary + (frames.map Frame.finishedArguments).sum

theorem heldOperands_operator (op : Operator) (frames : List Frame) :
    heldOperands (.operator op :: frames) + 1 = heldOperands frames + op.arity := by
  cases op with
  | unary op => simp [heldOperands, Frame.isBinary, Frame.finishedArguments, Operator.arity]
  | binary b =>
      simp only [heldOperands, List.countP_cons, Frame.isBinary, List.map_cons,
        Frame.finishedArguments, List.sum_cons, Operator.arity, if_true]
      omega

@[simp]
theorem heldOperands_paren (frames : List Frame) :
    heldOperands (.paren :: frames) = heldOperands frames := by
  simp [heldOperands, Frame.isBinary, Frame.finishedArguments]

@[simp]
theorem heldOperands_call (name : String) (count : Nat) (frames : List Frame) :
    heldOperands (.call name count :: frames) = heldOperands frames + (count - 1) := by
  simp only [heldOperands, List.countP_cons, Frame.isBinary, List.map_cons,
    Frame.finishedArguments, List.sum_cons, Bool.false_eq_true, if_false]
  omega

/-! ## Between two tokens -/

theorem Begun.one_le_count
    {frames : List Frame} {operands : List Operand} {w : List Token} {name : String}
    {count : Nat} (h : Begun frames operands w) (hmem : .call name count ∈ frames) :
    1 ≤ count := by
  induction h generalizing name count with
  | start => simp at hmem
  | paren _ ih => exact ih (by simpa using hmem)
  | call _ _ ih =>
      rcases List.mem_cons.mp hmem with heq | hmem
      · cases heq
        exact Nat.le_refl 1
      · exact ih hmem
  | argument _ _ ih =>
      rcases List.mem_cons.mp hmem with heq | hmem
      · cases heq
        exact Nat.le_add_left 1 _
      · exact ih (List.mem_cons_of_mem _ hmem)
  | sign _ _ ih => exact ih (by simpa using hmem)
  | binary _ _ _ _ ih => exact ih (by simpa using hmem)

theorem Begun.length_operands
    {frames : List Frame} {operands : List Operand} {w : List Token}
    (h : Begun frames operands w) : operands.length = heldOperands frames := by
  induction h with
  | start => rfl
  | paren _ ih => simpa using ih
  | call _ _ ih => simpa using ih
  | @argument frames operands _ _ name count _ h _ ih =>
      have hcount : 1 ≤ count := h.one_le_count List.mem_cons_self
      rw [heldOperands_call] at ih ⊢
      rw [List.length_cons, ih]
      omega
  | @sign frames _ _ _ op _ _ ih =>
      have hheld := heldOperands_operator (.unary op) frames
      rw [Operator.arity] at hheld
      omega
  | @binary frames _ _ _ _ b _ _ _ _ _ ih =>
      have hheld := heldOperands_operator (.binary b) frames
      rw [Operator.arity] at hheld
      rw [List.length_cons]
      omega

theorem Stands.length_operands
    {c : Category} {frames : List Frame} {operands : List Operand} {w : List Token}
    (h : Stands c frames operands w) : operands.length = heldOperands frames + 1 := by
  obtain ⟨below, u, v, t, rfl, hbegun, -⟩ := h
  rw [List.length_cons, hbegun.length_operands]

/-- An argument list that was just opened has no argument yet. -/
theorem Begun.count_eq_one
    {name : String} {count : Nat} {frames : List Frame} {operands : List Operand}
    {w : List Token} (h : Begun (.call name count :: frames) operands w)
    (hlast : w.getLast? = some .openParen) : count = 1 := by
  cases h with
  | call => rfl
  | argument => simp [List.getLast?_append] at hlast

/-! ## Inside the loops -/

theorem pushTree_error
    {t : Expr} {height : Nat} {operands : List Operand} {e : EvalError}
    (h : Yard.pushTree t height operands = .error e) : e = .tooDeep := by
  unfold Yard.pushTree at h
  split at h
  · cases h
    rfl
  · cases h

theorem length_pushTree
    {t : Expr} {height : Nat} {operands operands' : List Operand}
    (h : Yard.pushTree t height operands = .ok operands') :
    operands'.length = operands.length + 1 := by
  unfold Yard.pushTree at h
  split at h
  · cases h
  · cases h
    rfl

theorem length_reduce
    {op : Operator} {operands operands' : List Operand}
    (h : Yard.reduce op operands = .ok operands') :
    operands'.length + op.arity = operands.length + 1 := by
  unfold Yard.reduce at h
  split at h
  · rw [length_pushTree h]
    rfl
  · rw [length_pushTree h]
    rfl
  · cases h

/-- With enough operands, only the height of the tree can stop an operator. -/
theorem reduce_error
    {op : Operator} {operands : List Operand} {e : EvalError}
    (harity : op.arity ≤ operands.length) (h : Yard.reduce op operands = .error e) :
    e = .tooDeep := by
  unfold Yard.reduce at h
  split at h
  · exact pushTree_error h
  · exact pushTree_error h
  · next hunary hbinary =>
      exfalso
      cases op with
      | unary op =>
          obtain ⟨x, below, rfl⟩ := List.exists_cons_of_length_pos harity
          exact hunary op x below rfl rfl
      | binary b =>
          match operands, harity with
          | y :: x :: below, _ => exact hbinary b y x below rfl rfl

theorem arity_le_of_length
    {op : Operator} {frames : List Frame} {operands : List Operand}
    (hlength : operands.length = heldOperands (.operator op :: frames) + 1) :
    op.arity ≤ operands.length := by
  have hheld := heldOperands_operator op frames
  omega

/-- Applying the operator on top leaves what the frames below account for. -/
theorem length_reduce_of_length
    {op : Operator} {frames : List Frame} {operands operands' : List Operand}
    (hlength : operands.length = heldOperands (.operator op :: frames) + 1)
    (h : Yard.reduce op operands = .ok operands') :
    operands'.length = heldOperands frames + 1 := by
  have hheld := heldOperands_operator op frames
  have hreduce := length_reduce h
  omega

theorem length_reduceAll
    {ops : List Operator} {rest : List Frame} {operands operands' : List Operand}
    (hlength : operands.length = heldOperands (waiting ops ++ rest) + 1)
    (h : reduceAll ops operands = .ok operands') :
    operands'.length = heldOperands rest + 1 := by
  induction ops generalizing operands with
  | nil =>
      cases h
      exact hlength
  | cons op ops ih =>
      rw [reduceAll_cons, bind_eq_ok_iff] at h
      obtain ⟨operands₁, hfirst, hrest⟩ := h
      exact ih (length_reduce_of_length hlength hfirst) hrest

theorem reduceAll_error
    {ops : List Operator} {rest : List Frame} {operands : List Operand} {e : EvalError}
    (hlength : operands.length = heldOperands (waiting ops ++ rest) + 1)
    (h : reduceAll ops operands = .error e) : e = .tooDeep := by
  induction ops generalizing operands with
  | nil => cases h
  | cons op ops ih =>
      rw [reduceAll_cons, bind_eq_error_iff] at h
      rcases h with hfirst | ⟨operands₁, hfirst, hrest⟩
      · exact reduce_error (arity_le_of_length hlength) hfirst
      · exact ih (length_reduce_of_length hlength hfirst) hrest

theorem closeCall_error
    {name : String} {count : Nat} {frames : List Frame} {operands : List Operand}
    {e : EvalError} (hcount : count ≤ operands.length)
    (h : Yard.closeCall name count frames operands = .error e) : e = .tooDeep := by
  rw [Yard.closeCall, if_neg (Nat.not_lt.mpr hcount), bind_eq_error_iff] at h
  rcases h with hpush | ⟨_, _, ⟨⟩⟩
  exact pushTree_error hpush

theorem count_le_of_length
    {name : String} {count : Nat} {frames : List Frame} {operands : List Operand}
    (hlength : operands.length = heldOperands (.call name count :: frames) + 1) :
    count ≤ operands.length := by
  rw [heldOperands_call] at hlength
  omega

/-! ## Errors of the operations -/

section Errors

variable {frames : List Frame} {operands : List Operand} {e : EvalError}

theorem addBinary_error
    {b : BinaryOperator} (hlength : operands.length = heldOperands frames + 1)
    (h : Yard.addBinary b frames operands = .error e) : e = .tooDeep := by
  obtain ⟨ops, rest, rfl, hops, hrest⟩ :=
    exists_waiting_append (fun op => Yard.yieldsTo op b) frames
  rw [addBinary_waiting_append hops hrest, bind_eq_error_iff] at h
  rcases h with hreduce | ⟨_, _, ⟨⟩⟩
  exact reduceAll_error hlength hreduce

theorem addComma_error
    (hlength : operands.length = heldOperands frames + 1)
    (h : Yard.addComma frames operands = .error e) : e = .tooDeep ∨ e = .unexpected "," := by
  obtain ⟨ops, rest, rfl, htop⟩ := exists_waiting_append_of_none frames
  rw [addComma_waiting_append, bind_eq_error_iff] at h
  rcases h with hreduce | ⟨operands', hreduce, hrest⟩
  · exact .inl (reduceAll_error hlength hreduce)
  · cases rest with
    | nil =>
        cases hrest
        exact .inr rfl
    | cons frame rest =>
        cases frame with
        | operator op => cases htop
        | paren =>
            cases hrest
            exact .inr rfl
        | call name count => cases hrest

theorem addCloseParen_error
    (hlength : operands.length = heldOperands frames + 1)
    (h : Yard.addCloseParen frames operands = .error e) :
    e = .tooDeep ∨ e = .missing "(" := by
  obtain ⟨ops, rest, rfl, htop⟩ := exists_waiting_append_of_none frames
  rw [addCloseParen_waiting_append, bind_eq_error_iff] at h
  rcases h with hreduce | ⟨operands', hreduce, hrest⟩
  · exact .inl (reduceAll_error hlength hreduce)
  · cases rest with
    | nil =>
        cases hrest
        exact .inr rfl
    | cons frame rest =>
        cases frame with
        | operator op => cases htop
        | paren => cases hrest
        | call name count =>
            have hleft := length_reduceAll hlength hreduce
            exact .inl (closeCall_error (count_le_of_length hleft) hrest)

/-- At the end one operand is left, unless a parenthesis is open. -/
theorem finish_error
    (hlength : operands.length = heldOperands frames + 1)
    (h : Yard.finish frames operands = .error e) :
    e = .tooDeep ∨ e = .missing ")" ∧ ∃ frame ∈ frames, frame.isOpen = true := by
  obtain ⟨ops, rest, rfl, htop⟩ := exists_waiting_append_of_none frames
  rw [finish_waiting_append, bind_eq_error_iff] at h
  rcases h with hreduce | ⟨operands', hreduce, hrest⟩
  · exact .inl (reduceAll_error hlength hreduce)
  · cases rest with
    | nil =>
        have hleft := length_reduceAll hlength hreduce
        obtain ⟨x, rfl⟩ := List.length_eq_one_iff.mp hleft
        cases hrest
    | cons frame rest =>
        cases frame with
        | operator op => cases htop
        | paren =>
            cases hrest
            exact .inr ⟨rfl, .paren, by simp, rfl⟩
        | call name count =>
            cases hrest
            exact .inr ⟨rfl, .call name count, by simp, rfl⟩

end Errors

/-! ## Errors of a step -/

/-- The errors that a token can meet.  None of them says that an operand is
missing. -/
inductive Refuses : (t : Token) → (e : EvalError) → Prop where
  | tooDeep (t : Token) : Refuses t .tooDeep
  | misplaced (t : Token) : Refuses t (.unexpected t.content)
  | noNumber (literal : String) : Refuses (.number literal) (.invalidNumber literal)
  | noSign (s : OperatorSymbol) : Refuses (.operator s) (.misplacedOperator s.text)
  | unopened : Refuses .closeParen (.missing "(")

theorem refuses_of_stepOperand
    {p : Parsing} {t : Token} {e : EvalError} (h : p.stepOperand t = .error e) :
    Refuses t e := by
  cases t with
  | number literal =>
      simp only [Parsing.stepOperand] at h
      split at h
      · cases h
      · cases h
        exact .noNumber literal
  | identifier name => cases h
  | operator s =>
      simp only [Parsing.stepOperand, bind_eq_error_iff] at h
      rcases h with hadd | ⟨_, _, ⟨⟩⟩
      unfold Yard.addUnary at hadd
      split at hadd
      · cases hadd
      · cases hadd
        exact .noSign s
  | openParen => cases h
  | closeParen =>
      simp only [Parsing.stepOperand] at h
      split at h
      · simp only [bind_eq_error_iff] at h
        rcases h with hadd | ⟨_, _, ⟨⟩⟩
        unfold Yard.addEmptyCall at hadd
        split at hadd
        · obtain rfl := closeCall_error (Nat.zero_le _) hadd
          exact .tooDeep .closeParen
        · cases hadd
          exact .misplaced .closeParen
      · cases h
        exact .misplaced .closeParen
  | comma =>
      cases h
      exact .misplaced .comma

theorem Stands.refuses
    {frames : List Frame} {operands : List Operand} {w : List Token} {t : Token}
    {e : EvalError} (h : Stands .primary frames operands w)
    (hstep : Parsing.stepOperator ⟨⟨operands, frames⟩, false, w.getLast?⟩ t = .error e) :
    Refuses t e := by
  have hlength := h.length_operands
  cases t with
  | number literal =>
      cases hstep
      exact .misplaced (.number literal)
  | identifier name =>
      cases hstep
      exact .misplaced (.identifier name)
  | operator s =>
      simp only [Parsing.stepOperator, bind_eq_error_iff] at hstep
      rcases hstep with hadd | ⟨_, _, ⟨⟩⟩
      obtain rfl := addBinary_error hlength hadd
      exact .tooDeep (.operator s)
  | closeParen =>
      simp only [Parsing.stepOperator, bind_eq_error_iff] at hstep
      rcases hstep with hadd | ⟨_, _, ⟨⟩⟩
      rcases addCloseParen_error hlength hadd with rfl | rfl
      · exact .tooDeep .closeParen
      · exact .unopened
  | comma =>
      simp only [Parsing.stepOperator, bind_eq_error_iff] at hstep
      rcases hstep with hadd | ⟨_, _, ⟨⟩⟩
      rcases addComma_error hlength hadd with rfl | rfl
      · exact .tooDeep .comma
      · exact .misplaced .comma
  | openParen =>
      simp only [Parsing.stepOperator] at hstep
      split at hstep
      · next hnamed =>
          simp only [bind_eq_error_iff] at hstep
          rcases hstep with hadd | ⟨_, _, ⟨⟩⟩
          unfold Parsing.justNamed at hnamed
          split at hnamed
          · next name hlast =>
              obtain ⟨below, u, rfl, -⟩ := h.exists_identifier hlast
              cases hadd
          · cases hnamed
      · cases hstep
        exact .misplaced .openParen

theorem Consumed.refuses
    {w : List Token} {p : Parsing} {t : Token} {e : EvalError} (h : Consumed w p)
    (hstep : p.step t = .error e) : Refuses t e := by
  cases h with
  | begun h => exact refuses_of_stepOperand hstep
  | stands h => exact h.refuses hstep

/-! ## Runs -/

/-- What the operations on the stacks find there. -/
structure Supplied (p : Parsing) : Prop where
  /-- The operands are those of the frames, and one that was just read. -/
  length_operands :
    p.yard.operands.length =
      heldOperands p.yard.frames + if p.expectsOperand then 0 else 1
  /-- Every open call counts the argument that is read. -/
  one_le_count : ∀ name count, .call name count ∈ p.yard.frames → 1 ≤ count
  /-- The count holds wherever a loop over the frames has got to, so the next operator
  has its operands, a call that is closed its arguments, and the end of the frames
  leaves one operand. -/
  inside : p.expectsOperand = false → ∀ ops rest operands,
    p.yard.frames = waiting ops ++ rest → reduceAll ops p.yard.operands = .ok operands →
      operands.length = heldOperands rest + 1 ∧
      (∀ op frames, rest = .operator op :: frames → op.arity ≤ operands.length) ∧
      (∀ name count frames, rest = .call name count :: frames → count ≤ operands.length) ∧
      (rest = [] → ∃ x, operands = [x])
  /-- Where a call begins, its name is the operand on top. -/
  justNamed : p.expectsOperand = false → p.justNamed = true →
    ∃ name below, p.yard.operands = ⟨.identifier name, 1⟩ :: below
  /-- Where a call is closed at once, it is the frame on top and has no arguments. -/
  justOpenedCall : p.expectsOperand = true → p.justOpenedCall = true →
    ∃ name frames, p.yard.frames = .call name 1 :: frames

theorem Begun.supplied
    {frames : List Frame} {operands : List Operand} {w : List Token}
    (h : Begun frames operands w) : Supplied ⟨⟨operands, frames⟩, true, w.getLast?⟩ := by
  refine ⟨h.length_operands, fun _ _ => h.one_le_count, nofun, nofun, ?_⟩
  intro _ hopened
  simp only [Parsing.justOpenedCall, Bool.and_eq_true, beq_iff_eq] at hopened
  obtain ⟨hlast, hframes⟩ := hopened
  split at hframes
  · obtain rfl := h.count_eq_one hlast
    exact ⟨_, _, rfl⟩
  · cases hframes

theorem Stands.supplied
    {frames : List Frame} {operands : List Operand} {w : List Token}
    (h : Stands .primary frames operands w) :
    Supplied ⟨⟨operands, frames⟩, false, w.getLast?⟩ := by
  have hcount : ∀ name count, Frame.call name count ∈ frames → 1 ≤ count := by
    obtain ⟨_, _, _, _, _, hbegun, -⟩ := h
    exact fun _ _ => hbegun.one_le_count
  refine ⟨h.length_operands, hcount, ?_, ?_, nofun⟩
  · rintro - ops rest operands' rfl hreduce
    have hleft := length_reduceAll h.length_operands hreduce
    refine ⟨hleft, ?_, ?_, ?_⟩
    · rintro op frames rfl
      exact arity_le_of_length hleft
    · rintro name count frames rfl
      exact count_le_of_length hleft
    · rintro rfl
      exact List.length_eq_one_iff.mp hleft
  · intro _ hnamed
    simp only [Parsing.justNamed] at hnamed
    split at hnamed
    · next name hlast =>
        obtain ⟨below, _, rfl, -⟩ := h.exists_identifier hlast
        exact ⟨name, below, rfl⟩
    · cases hnamed

theorem Consumed.supplied {w : List Token} {p : Parsing} (h : Consumed w p) : Supplied p := by
  cases h with
  | begun h => exact h.supplied
  | stands h => exact h.supplied

theorem Consumed.refuses_of_run
    {w tokens : List Token} {p : Parsing} {e : EvalError} (h : Consumed w p)
    (hrun : tokens.foldlM Parsing.step p = .error e) : ∃ t ∈ tokens, Refuses t e := by
  induction tokens generalizing w p with
  | nil => cases hrun
  | cons t tokens ih =>
      rw [List.foldlM_cons, bind_eq_error_iff] at hrun
      rcases hrun with hstep | ⟨p', hstep, hrest⟩
      · exact ⟨t, List.mem_cons_self, h.refuses hstep⟩
      · obtain ⟨t', hmem, hrefuses⟩ := ih (h.step hstep) hrest
        exact ⟨t', List.mem_cons_of_mem _ hmem, hrefuses⟩

theorem Consumed.finish_error
    {w : List Token} {p : Parsing} {e : EvalError} (h : Consumed w p)
    (hfinish : p.finish = .error e) :
    p.expectsOperand = true ∧ e = .abruptEnd ∨
    p.expectsOperand = false ∧
      (e = .tooDeep ∨ e = .missing ")" ∧ ∃ frame ∈ p.yard.frames, frame.isOpen = true) := by
  cases h with
  | begun h =>
      cases hfinish
      exact .inl ⟨rfl, rfl⟩
  | stands h => exact .inr ⟨rfl, Grammar.finish_error h.length_operands hfinish⟩

/-- An error that no token and no character meets is one of the end of the text. -/
theorem finish_of_parse_error
    {text : String} {e : EvalError} (h : Expr.parse text = .error e)
    (htoken : ∀ t, ¬ Refuses t e) (hcharacter : ∀ c, e ≠ .invalidCharacter c) :
    (Token.scan text.toList).stopped = none ∧
      ∃ p, (Token.scan text.toList).tokens.foldlM Parsing.step .start = .ok p ∧
        p.finish = .error e := by
  rw [Expr.parse, Expr.ofScanned, bind_eq_error_iff] at h
  rcases h with hrun | ⟨p, hrun, hend⟩
  · obtain ⟨t, -, hrefuses⟩ := Consumed.refuses_of_run (.begun .start) hrun
    exact absurd hrefuses (htoken t)
  · split at hend
    · next c _ =>
        cases hend
        exact absurd rfl (hcharacter c)
    · next hstopped => exact ⟨hstopped, p, hrun, hend⟩

theorem not_refuses_abruptEnd (t : Token) : ¬ Refuses t .abruptEnd :=
  nofun

theorem not_refuses_missing (t : Token) : ¬ Refuses t (.missing ")") := by
  generalize he : EvalError.missing ")" = e
  intro h
  cases h with
  | unopened => simp at he
  | _ => cases he

/-- The bookkeeping of the parser never runs dry.  After any tokens the operands are
those that the frames account for, and every operation on the stacks finds what it
takes from them; neither a token nor the end behind an operand is refused for want of
an operand.  A text therefore ends abruptly exactly if it is read to its end and an
operand is missing there, and a closing parenthesis is missed only behind an operand
with a parenthesis or a call still open. -/
theorem operands_suffice (text : String) :
    (∀ (read : List Token) (p : Parsing), read.foldlM Parsing.step .start = .ok p →
      Supplied p ∧ (∀ t, p.step t ≠ .error .abruptEnd) ∧
        (p.expectsOperand = false → p.finish ≠ .error .abruptEnd)) ∧
    (Expr.parse text = .error .abruptEnd ↔
      (Token.scan text.toList).stopped = none ∧
        ∃ p, (Token.scan text.toList).tokens.foldlM Parsing.step .start = .ok p ∧
          p.expectsOperand = true) ∧
    (Expr.parse text = .error (.missing ")") →
      (Token.scan text.toList).stopped = none ∧
        ∃ p, (Token.scan text.toList).tokens.foldlM Parsing.step .start = .ok p ∧
          p.expectsOperand = false ∧ ∃ frame ∈ p.yard.frames, frame.isOpen = true) := by
  have habrupt : ∀ {w : List Token} {p : Parsing}, Consumed w p →
      p.finish = .error .abruptEnd → p.expectsOperand = true := by
    intro w p hconsumed hfinish
    rcases hconsumed.finish_error hfinish with ⟨hexpects, -⟩ | ⟨-, he | ⟨he, -⟩⟩
    · exact hexpects
    · cases he
    · cases he
  refine ⟨?_, ⟨?_, ?_⟩, ?_⟩
  · intro read p hrun
    have hconsumed := consumed_of_run hrun
    refine ⟨hconsumed.supplied, ?_, ?_⟩
    · intro t hstep
      exact not_refuses_abruptEnd t (hconsumed.refuses hstep)
    · intro hexpects hfinish
      rw [habrupt hconsumed hfinish] at hexpects
      cases hexpects
  · intro h
    obtain ⟨hstopped, p, hrun, hfinish⟩ :=
      finish_of_parse_error h not_refuses_abruptEnd (by simp)
    exact ⟨hstopped, p, hrun, habrupt (consumed_of_run hrun) hfinish⟩
  · rintro ⟨hstopped, p, hrun, hexpects⟩
    rw [Expr.parse, Expr.ofScanned, hrun, ok_bind, hstopped]
    simp only [Parsing.finish, hexpects, if_true]
  · intro h
    obtain ⟨hstopped, p, hrun, hfinish⟩ :=
      finish_of_parse_error h not_refuses_missing (by simp)
    refine ⟨hstopped, p, hrun, ?_⟩
    rcases (consumed_of_run hrun).finish_error hfinish with ⟨-, he⟩ | ⟨hfalse, he | ⟨-, hopen⟩⟩
    · cases he
    · cases he
    · exact ⟨hfalse, hopen⟩

/-- Behind the sum in an unfinished call three operands wait, one of them for the
operator and one for the call; with an operand missing there, the text ends
abruptly. -/
theorem supplied_unfinished_call :
    Supplied ⟨⟨[⟨.identifier "z", 1⟩, ⟨.identifier "x", 1⟩, ⟨.identifier "y", 1⟩],
      [.operator (.binary .addition), .call "f" 2]⟩, false, some (.identifier "z")⟩ ∧
    Expr.parse "f(y,x+" = .error .abruptEnd ∧
    Expr.parse "f(y,x+z" = .error (.missing ")") ∧
      ∃ p, (Token.scan "f(y,x+z".toList).tokens.foldlM Parsing.step .start = .ok p ∧
        p.expectsOperand = false ∧ ∃ frame ∈ p.yard.frames, frame.isOpen = true := by
  have hscan : Token.scan "f(y,x+".toList =
      ⟨[.identifier "f", .openParen, .identifier "y", .comma, .identifier "x",
        .operator .plus], none⟩ :=
    Token.scan_of_first? (by decide) (by decide) rfl <|
      Token.scan_of_first? (by decide) (by decide) rfl <|
      Token.scan_of_first? (by decide) (by decide) rfl <|
      Token.scan_of_first? (by decide) (by decide) rfl <|
      Token.scan_of_first? (by decide) (by decide) rfl <|
      Token.scan_of_first? (by decide) (by decide) rfl Token.scan_nil
  have hscan' : Token.scan "f(y,x+z".toList =
      ⟨[.identifier "f", .openParen, .identifier "y", .comma, .identifier "x",
        .operator .plus, .identifier "z"], none⟩ :=
    Token.scan_of_first? (by decide) (by decide) rfl <|
      Token.scan_of_first? (by decide) (by decide) rfl <|
      Token.scan_of_first? (by decide) (by decide) rfl <|
      Token.scan_of_first? (by decide) (by decide) rfl <|
      Token.scan_of_first? (by decide) (by decide) rfl <|
      Token.scan_of_first? (by decide) (by decide) rfl <|
      Token.scan_of_first? (by decide) (by decide) rfl Token.scan_nil
  have hmissing : Expr.parse "f(y,x+z" = .error (.missing ")") := by
    rw [Expr.parse, hscan']
    rfl
  have hrun : (Token.scan "f(y,x+z".toList).tokens.foldlM Parsing.step .start =
      .ok ⟨⟨[⟨.identifier "z", 1⟩, ⟨.identifier "x", 1⟩, ⟨.identifier "y", 1⟩],
        [.operator (.binary .addition), .call "f" 2]⟩, false, some (.identifier "z")⟩ := by
    rw [hscan']
    rfl
  refine ⟨((operands_suffice "f(y,x+z").1 _ _ hrun).1, ?_, hmissing,
    ((operands_suffice "f(y,x+z").2.2 hmissing).2⟩
  refine (operands_suffice "f(y,x+").2.1.mpr ⟨by rw [hscan], ?_⟩
  rw [hscan]
  exact ⟨_, rfl, rfl⟩

end Grammar
end Calculator
