import Calculator.Proofs.Grammar.Stacks

/-!
# Phrases are parsed

The parser that reads a phrase ends, above the stacks it started with, with
operators and operands from which the tree of the phrase is built once the
operators are applied.  It fails only where a tree on the way is too high, and
then so is the tree of the phrase.
-/

namespace Calculator
namespace Grammar

open Support

/-! ## Outcomes up to the limit on heights -/

/-- The computation yields a value with the property `P`, or it stops because a
tree is too high, which happens only if `height` exceeds the limit. -/
def Reaches {α : Type} (height : Nat) (r : Except EvalError α) (P : α → Prop) : Prop :=
  match r with
  | .ok a => P a
  | .error e => e = .tooDeep ∧ maxTreeHeight < height

theorem Reaches.bind
    {α β : Type} {height : Nat} {r : Except EvalError α} {f : α → Except EvalError β}
    {P : α → Prop} {Q : β → Prop}
    (hr : Reaches height r P) (hf : ∀ a, P a → Reaches height (f a) Q) :
    Reaches height (r >>= f) Q := by
  cases r with
  | error e => exact hr
  | ok a => exact hf a hr

theorem Reaches.mono_height
    {α : Type} {height height' : Nat} {r : Except EvalError α} {P : α → Prop}
    (hle : height ≤ height') (hr : Reaches height r P) : Reaches height' r P := by
  cases r with
  | error e => exact ⟨hr.1, Nat.lt_of_lt_of_le hr.2 hle⟩
  | ok a => exact hr

theorem Reaches.mono
    {α : Type} {height : Nat} {r : Except EvalError α} {P Q : α → Prop}
    (hPQ : ∀ a, P a → Q a) (hr : Reaches height r P) : Reaches height r Q := by
  cases r with
  | error e => exact hr
  | ok a => exact hPQ a hr

/-! ## Operators that are still to be applied -/

/-- Applying the operators to the pending operands builds the tree and touches
nothing below. -/
def Settles (ops : List Operator) (pending : List Operand) (t : Expr) : Prop :=
  ∀ below, Reaches t.height (reduceAll ops (pending ++ below))
    (fun operands => operands = operandOf t :: below)

theorem reaches_pushTree (t : Expr) (operands : List Operand) :
    Reaches t.height (Yard.pushTree t t.height operands)
      (fun operands' => operands' = operandOf t :: operands) := by
  unfold Yard.pushTree
  split
  · next hlt => exact ⟨rfl, hlt⟩
  · rfl

theorem settles_operand (t : Expr) : Settles [] [operandOf t] t := fun _ => rfl

theorem Settles.unary
    {ops : List Operator} {pending : List Operand} {t : Expr}
    (h : Settles ops pending t) (op : UnaryOperator) :
    Settles (ops ++ [.unary op]) pending (.unary op t) := by
  intro below
  rw [reduceAll_append]
  refine ((h below).mono_height (Nat.le_succ _)).bind ?_
  rintro _ rfl
  exact (reaches_pushTree (.unary op t) below).bind fun operands h => h

theorem Settles.binary
    {ops : List Operator} {pending : List Operand} {b : Expr}
    (h : Settles ops pending b) (op : BinaryOperator) (a : Expr) :
    Settles (ops ++ [.binary op]) (pending ++ [operandOf a]) (.binary op a b) := by
  intro below
  have hle : b.height ≤ (Expr.binary op a b).height :=
    Nat.le_succ_of_le (Nat.le_max_right _ _)
  rw [reduceAll_append, List.append_assoc]
  refine ((h (operandOf a :: below)).mono_height hle).bind ?_
  rintro _ rfl
  exact (reaches_pushTree (.binary op a b) below).bind fun operands h => h

/-! ## Reading one phrase -/

/-- The state in which the operand after the given frames comes next. -/
def before (frames : List Frame) (operands : List Operand) (previous : Option Token) :
    Parsing :=
  ⟨⟨operands, frames⟩, true, previous⟩

/-- A state in which a phrase of category `c` with tree `t` has been read on top
of the given stacks.  Every operator that may follow such a phrase makes the
waiting ones yield. -/
def After (c : Category) (t : Expr) (frames : List Frame) (operands : List Operand)
    (p : Parsing) : Prop :=
  ∃ ops pending previous,
    p = ⟨⟨pending ++ operands, waiting ops ++ frames⟩, false, previous⟩ ∧
      (∀ op ∈ ops, ∀ b, (leftOperand b).rank ≤ c.rank → Yard.yieldsTo op b = true) ∧
      Settles ops pending t

/-- The parser reads `w` as a phrase of category `c` with tree `t`, on top of any
stacks whose frames hold back for the operators inside such a phrase. -/
def Simulated (c : Category) (w : List Token) (t : Expr) : Prop :=
  ∀ frames operands previous,
    (∀ b, c.rank ≤ (result b).rank → Holds frames b) →
      Reaches t.height (w.foldlM Parsing.step (before frames operands previous))
        (After c t frames operands)

theorem after_operand
    (c : Category) (t : Expr) (frames : List Frame) (operands : List Operand)
    (previous : Option Token) :
    After c t frames operands
      ⟨⟨operandOf t :: operands, frames⟩, false, previous⟩ :=
  ⟨[], [operandOf t], previous, rfl, by simp, settles_operand t⟩

theorem Simulated.loosen
    {c d : Category} {w : List Token} {t : Expr}
    (hrank : c.rank ≤ d.rank) (h : Simulated d w t) : Simulated c w t := by
  intro frames operands previous hholds
  refine (h frames operands previous fun b hb => hholds b (Nat.le_trans hrank hb)).mono ?_
  rintro _ ⟨ops, pending, previous', rfl, hops, hsettles⟩
  exact ⟨ops, pending, previous', rfl,
    fun op hop b hb => hops op hop b (Nat.le_trans hb hrank), hsettles⟩

theorem Simulated.sign
    {s : OperatorSymbol} {op : UnaryOperator} {w : List Token} {t : Expr}
    (hs : s.unary? = some op) (h : Simulated .unary w t) :
    Simulated .unary (.operator s :: w) (.unary op t) := by
  intro frames operands previous _
  have hstep : Parsing.step (before frames operands previous) (.operator s) =
      .ok (before (.operator (.unary op) :: frames) operands (some (.operator s))) := by
    simp [Parsing.step, Parsing.stepOperand, Yard.addUnary, before, hs]
  have hholds : ∀ b, Category.unary.rank ≤ (result b).rank →
      Holds (.operator (.unary op) :: frames) b := by
    rintro b hb _ ⟨⟩
    exact yieldsTo_eq_false_iff.mpr hb
  rw [List.foldlM_cons, hstep, ok_bind]
  refine ((h _ operands _ hholds).mono_height (Nat.le_succ _)).mono ?_
  rintro _ ⟨ops, pending, previous', rfl, hops, hsettles⟩
  have hall : ∀ op' ∈ ops ++ [.unary op], ∀ b,
      (leftOperand b).rank ≤ Category.unary.rank → Yard.yieldsTo op' b = true :=
    List.forall_mem_append.mpr
      ⟨hops, List.forall_mem_singleton.mpr fun b hb => yieldsTo_eq_true_iff.mpr hb⟩
  exact ⟨ops ++ [.unary op], pending, previous', by simp [waiting], hall, hsettles.unary op⟩

theorem Simulated.binary
    {s : OperatorSymbol} {w₁ w₂ : List Token} {a b : Expr}
    (hleft : Simulated (leftOperand s.binary) w₁ a)
    (hright : Simulated (rightOperand s.binary) w₂ b) :
    Simulated (result s.binary) (w₁ ++ .operator s :: w₂) (.binary s.binary a b) := by
  intro frames operands previous hholds
  have hholdsLeft : ∀ b, (leftOperand s.binary).rank ≤ (result b).rank → Holds frames b :=
    fun b hb => hholds b (Nat.le_trans (result_le_leftOperand _) hb)
  have hheightLeft : a.height ≤ (Expr.binary s.binary a b).height :=
    Nat.le_succ_of_le (Nat.le_max_left _ _)
  have hheightRight : b.height ≤ (Expr.binary s.binary a b).height :=
    Nat.le_succ_of_le (Nat.le_max_right _ _)
  rw [List.foldlM_append]
  refine ((hleft frames operands previous hholdsLeft).mono_height hheightLeft).bind ?_
  rintro _ ⟨ops, pending, previous', rfl, hops, hsettles⟩
  rw [List.foldlM_cons]
  have hstep : Reaches (Expr.binary s.binary a b).height
      (Parsing.step ⟨⟨pending ++ operands, waiting ops ++ frames⟩, false, previous'⟩
        (.operator s))
      (fun p => p = before (.operator (.binary s.binary) :: frames) (operandOf a :: operands)
        (some (.operator s))) := by
    have hyields : ∀ op ∈ ops, Yard.yieldsTo op s.binary = true :=
      fun op hop => hops op hop _ (Nat.le_refl _)
    have hrest : Holds frames s.binary := hholds _ (Nat.le_refl _)
    simp only [Parsing.step, Parsing.stepOperator, Bool.false_eq_true, if_false,
      addBinary_waiting_append hyields hrest, bind_assoc]
    refine ((hsettles operands).mono_height hheightLeft).bind ?_
    rintro _ rfl
    rfl
  refine hstep.bind ?_
  rintro _ rfl
  have hholdsRight : ∀ b, (rightOperand s.binary).rank ≤ (result b).rank →
      Holds (.operator (.binary s.binary) :: frames) b := by
    rintro b hb _ ⟨⟩
    exact yieldsTo_eq_false_iff.mpr hb
  refine ((hright _ (operandOf a :: operands) _ hholdsRight).mono_height hheightRight).mono ?_
  rintro _ ⟨ops', pending', previous'', rfl, hops', hsettles'⟩
  have hinner : ∀ op ∈ ops', ∀ b, (leftOperand b).rank ≤ (result s.binary).rank →
      Yard.yieldsTo op b = true := by
    intro op hop b hb
    have hresult : (leftOperand b).rank ≤ (resultOf (.binary s.binary)).rank := hb
    exact hops' op hop b (leftOperand_le_lastOperand hresult)
  have hall : ∀ op ∈ ops' ++ [.binary s.binary], ∀ b,
      (leftOperand b).rank ≤ (result s.binary).rank → Yard.yieldsTo op b = true :=
    List.forall_mem_append.mpr
      ⟨hinner, List.forall_mem_singleton.mpr fun b hb => yieldsTo_eq_true_iff.mpr hb⟩
  exact ⟨ops' ++ [.binary s.binary], pending' ++ [operandOf a], previous'',
    by simp [waiting], hall, hsettles'.binary s.binary a⟩

/-! ## Parentheses and calls -/

/-- Closing what a phrase has left waiting leads on with the phrase alone. -/
theorem After.closeParen
    {c : Category} {t : Expr} {frames : List Frame} {operands : List Operand}
    {p : Parsing} (h : After c t frames operands p) {P : Parsing → Prop} {height : Nat}
    (hle : t.height ≤ height)
    (hclose : Reaches height
      (Yard.addCloseParen frames (operandOf t :: operands) >>= fun yard =>
        .ok ⟨yard, false, some .closeParen⟩) P) :
    Reaches height ([Token.closeParen].foldlM Parsing.step p) P := by
  obtain ⟨ops, pending, previous, rfl, -, hsettles⟩ := h
  simp only [List.foldlM_cons, List.foldlM_nil, bind_pure, Parsing.step,
    Parsing.stepOperator, Bool.false_eq_true, if_false, addCloseParen_waiting_append,
    bind_assoc]
  refine ((hsettles operands).mono_height hle).bind ?_
  rintro _ rfl
  exact hclose

theorem After.comma
    {c : Category} {t : Expr} {name : String} {count : Nat} {frames : List Frame}
    {operands : List Operand} {p : Parsing}
    (h : After c t (.call name count :: frames) operands p) {height : Nat}
    (hle : t.height ≤ height) :
    Reaches height (Parsing.step p .comma)
      (fun p => p = before (.call name (count + 1) :: frames) (operandOf t :: operands)
        (some .comma)) := by
  obtain ⟨ops, pending, previous, rfl, -, hsettles⟩ := h
  simp only [Parsing.step, Parsing.stepOperator, Bool.false_eq_true, if_false,
    addComma_waiting_append, bind_assoc]
  refine ((hsettles operands).mono_height hle).bind ?_
  rintro _ rfl
  rfl

theorem Simulated.group
    {w : List Token} {t : Expr} (h : Simulated .sum w t) :
    Simulated .primary (.openParen :: (w ++ [.closeParen])) t := by
  intro frames operands previous _
  have hstep : Parsing.step (before frames operands previous) .openParen =
      .ok (before (.paren :: frames) operands (some .openParen)) := rfl
  have hholds : ∀ b, Category.sum.rank ≤ (result b).rank → Holds (.paren :: frames) b := by
    rintro b _ _ ⟨⟩
  rw [List.foldlM_cons, hstep, ok_bind, List.foldlM_append]
  refine (h _ operands _ hholds).bind fun p hp => hp.closeParen (Nat.le_refl _) ?_
  exact after_operand .primary t frames operands (some .closeParen)

/-- The arguments of an open call and its closing parenthesis: the arguments pile
up on the operands, and closing takes them together. -/
theorem reaches_arguments
    {name : String} {frames : List Frame} {height : Nat} {P : Parsing → Prop}
    (arguments : List (List Token × Expr)) (hne : arguments ≠ [])
    (hsim : ∀ a ∈ arguments, Simulated .sum a.1 a.2)
    (hle : ∀ a ∈ arguments, a.2.height ≤ height)
    (begun : Nat) (operands : List Operand) (previous : Option Token)
    (hclose : Reaches height
      (Yard.closeCall name (begun + arguments.length) frames
          (argumentOperands arguments ++ operands) >>= fun yard =>
        .ok ⟨yard, false, some .closeParen⟩) P) :
    Reaches height
      (([Token.comma].intercalate (arguments.map Prod.fst) ++ [Token.closeParen]).foldlM
        Parsing.step (before (.call name (begun + 1) :: frames) operands previous)) P := by
  have hholds : ∀ b, Category.sum.rank ≤ (result b).rank →
      Holds (.call name (begun + 1) :: frames) b := by
    rintro b _ _ ⟨⟩
  induction arguments generalizing begun operands previous with
  | nil => exact absurd rfl hne
  | cons a rest ih =>
      have hfirst := (hsim a (by simp) _ operands previous hholds).mono_height (hle a (by simp))
      cases rest with
      | nil =>
          simp only [List.map_cons, List.map_nil, List.intercalate_singleton,
            List.foldlM_append]
          exact hfirst.bind fun p hp => hp.closeParen (hle a (by simp)) hclose
      | cons a' rest =>
          simp only [List.map_cons, List.intercalate_cons_cons, List.append_assoc, List.cons_append]
          rw [List.foldlM_append]
          refine hfirst.bind fun p hp => ?_
          rw [List.foldlM_cons]
          refine (hp.comma (hle a (by simp))).bind ?_
          rintro _ rfl
          have hclose' : Reaches height
              (Yard.closeCall name (begun + 1 + (a' :: rest).length) frames
                  (argumentOperands (a' :: rest) ++ operandOf a.2 :: operands) >>= fun yard =>
                .ok ⟨yard, false, some .closeParen⟩) P := by
            have hcount : begun + 1 + (a' :: rest).length =
                begun + (a :: a' :: rest).length := by
              simp only [List.length_cons]
              omega
            rw [hcount]
            simpa [argumentOperands] using hclose
          exact ih (by simp) (fun a h => hsim a (List.mem_cons_of_mem _ h))
            (fun a h => hle a (List.mem_cons_of_mem _ h)) (begun + 1)
            (operandOf a.2 :: operands) (some .comma) hclose' (by rintro b _ _ ⟨⟩)

theorem height_le_maxHeight {t : Expr} {ts : List Expr} (h : t ∈ ts) :
    t.height ≤ Expr.maxHeight ts := by
  induction ts with
  | nil => simp at h
  | cons t' ts ih =>
      rw [Expr.maxHeight]
      rcases List.mem_cons.mp h with rfl | h
      · exact Nat.le_max_left _ _
      · exact Nat.le_trans (ih h) (Nat.le_max_right _ _)

theorem Simulated.call
    (name : String) {arguments : List (List Token × Expr)}
    (hsim : ∀ a ∈ arguments, Simulated .sum a.1 a.2) :
    Simulated .primary
      (.identifier name :: .openParen ::
        ([.comma].intercalate (arguments.map Prod.fst) ++ [.closeParen]))
      (.call name (arguments.map Prod.snd)) := by
  intro frames operands previous _
  have hname : Parsing.step (before frames operands previous) (.identifier name) =
      .ok ⟨⟨⟨.identifier name, 1⟩ :: operands, frames⟩, false, some (.identifier name)⟩ := rfl
  have hopen : Parsing.step
      ⟨⟨⟨.identifier name, 1⟩ :: operands, frames⟩, false, some (.identifier name)⟩
        .openParen =
      .ok (before (.call name 1 :: frames) operands (some .openParen)) := rfl
  rw [List.foldlM_cons, hname, ok_bind, List.foldlM_cons, hopen, ok_bind]
  have hclose : Reaches (Expr.call name (arguments.map Prod.snd)).height
      (Yard.closeCall name arguments.length frames (argumentOperands arguments ++ operands)
          >>= fun yard => .ok ⟨yard, false, some .closeParen⟩)
      (After .primary (.call name (arguments.map Prod.snd)) frames operands) := by
    rw [closeCall_argumentOperands, bind_assoc]
    refine (reaches_pushTree _ operands).bind ?_
    rintro _ rfl
    exact after_operand .primary _ frames operands _
  by_cases hne : arguments = []
  · subst hne
    exact hclose.bind fun p hp => hp
  · have hle : ∀ a ∈ arguments,
        a.2.height ≤ (Expr.call name (arguments.map Prod.snd)).height := fun a ha =>
      Nat.le_succ_of_le (height_le_maxHeight (List.mem_map_of_mem ha))
    exact reaches_arguments arguments hne hsim hle 0 operands (some .openParen)
      (by simpa using hclose)

/-! ## Whole phrases -/

end Grammar
end Calculator
