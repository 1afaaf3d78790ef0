import Calculator.Proofs.Grammar.Stacks

/-!
# What is parsed is a phrase

Read from the bottom, the two stacks spell out the tokens consumed so far: each
frame stands for the tokens that opened it, and each operand for a phrase of the
category that its place asks for.  Every step keeps this reading, so a tree that
comes out at the end is the tree of all tokens.
-/

namespace Calculator
namespace Grammar

open Support

/-! ## Reading the stacks -/

/-- The tokens `w` have led to the stacks, and an operand comes next. -/
inductive Begun : (frames : List Frame) → (operands : List Operand) → (w : List Token) → Prop where
  | start : Begun [] [] []
  | paren {frames : List Frame} {operands : List Operand} {w : List Token}
      (h : Begun frames operands w) :
      Begun (.paren :: frames) operands (w ++ [.openParen])
  | call {frames : List Frame} {operands : List Operand} {w : List Token} (name : String)
      (h : Begun frames operands w) :
      Begun (.call name 1 :: frames) operands (w ++ [.identifier name, .openParen])
  | argument {frames : List Frame} {operands : List Operand} {w v : List Token}
      {name : String} {count : Nat} {t : Expr}
      (h : Begun (.call name count :: frames) operands w) (ht : Derives .sum v t) :
      Begun (.call name (count + 1) :: frames) (operandOf t :: operands)
        (w ++ (v ++ [.comma]))
  | sign {frames : List Frame} {operands : List Operand} {w : List Token}
      {s : OperatorSymbol} {op : UnaryOperator}
      (h : Begun frames operands w) (hs : s.unary? = some op) :
      Begun (.operator (.unary op) :: frames) operands (w ++ [.operator s])
  | binary {frames : List Frame} {operands : List Operand} {w v : List Token}
      {s : OperatorSymbol} {b : BinaryOperator} {t : Expr}
      (h : Begun frames operands w) (hs : s.binary = b)
      (ht : Derives (leftOperand b) v t) (hholds : Holds frames b) :
      Begun (.operator (.binary b) :: frames) (operandOf t :: operands)
        (w ++ (v ++ [.operator s]))

/-- The tokens `w` end in a phrase of category `c` whose tree is the operand on
top; what is in front of it has led to the rest of the stacks. -/
def Stands (c : Category) (frames : List Frame) (operands : List Operand)
    (w : List Token) : Prop :=
  ∃ below u v t, operands = operandOf t :: below ∧ Begun frames below u ∧
    Derives c v t ∧ t.height ≤ maxTreeHeight ∧ w = u ++ v

/-- A phrase of category `c` can be the last operand of the operator on top. -/
def Fits (frames : List Frame) (c : Category) : Prop :=
  ∀ op, topOperator? frames = some op → (lastOperand op).rank ≤ c.rank

theorem lastOperand_le_unary (op : Operator) :
    (lastOperand op).rank ≤ Category.unary.rank := by
  cases op with
  | unary op => exact Nat.le_refl _
  | binary b => cases b <;> decide

theorem fits_primary (frames : List Frame) : Fits frames .primary :=
  fun op _ => Nat.le_trans (lastOperand_le_unary op) (by decide)

theorem pushTree_eq_ok
    {t : Expr} {operands operands' : List Operand}
    (h : Yard.pushTree t t.height operands = .ok operands') :
    operands' = operandOf t :: operands ∧ t.height ≤ maxTreeHeight := by
  unfold Yard.pushTree at h
  split at h
  · exact absurd h (by simp)
  · next hle =>
      cases h
      exact ⟨rfl, Nat.le_of_not_lt hle⟩

/-! ## Applying an operator -/

theorem Stands.of_reduce
    {c : Category} {op : Operator} {frames : List Frame}
    {operands operands' : List Operand} {w : List Token}
    (h : Stands c (.operator op :: frames) operands w)
    (hfits : (lastOperand op).rank ≤ c.rank)
    (hreduce : Yard.reduce op operands = .ok operands') :
    Stands (resultOf op) frames operands' w ∧ Fits frames (resultOf op) := by
  obtain ⟨below, u, v, t, rfl, hbegun, ht, -, rfl⟩ := h
  have ht : Derives (lastOperand op) v t := ht.loosen_le hfits
  cases hbegun with
  | @sign _ _ u s op hbegun hs =>
      obtain ⟨rfl, hheight⟩ := pushTree_eq_ok (t := .unary op t) hreduce
      refine ⟨⟨below, u, .operator s :: v, .unary op t, rfl, hbegun, .sign hs ht, hheight,
        by simp⟩, ?_⟩
      exact fun op' _ => lastOperand_le_unary op'
  | @binary _ below u v' s b a hbegun hs ha hholds =>
      subst hs
      obtain ⟨rfl, hheight⟩ := pushTree_eq_ok (t := .binary s.binary a t) hreduce
      refine ⟨⟨below, u, v' ++ .operator s :: v, .binary s.binary a t, rfl, hbegun,
        .binary ha ht, hheight, by simp⟩, ?_⟩
      exact fun op' hop' => yieldsTo_eq_false_iff.mp (hholds op' hop')

theorem Stands.of_reduceAll
    {c : Category} {ops : List Operator} {rest : List Frame}
    {operands operands' : List Operand} {w : List Token}
    (h : Stands c (waiting ops ++ rest) operands w)
    (hfits : Fits (waiting ops ++ rest) c)
    (hreduce : reduceAll ops operands = .ok operands') :
    ∃ c', Stands c' rest operands' w ∧ (c' = c ∨ ∃ op ∈ ops, c' = resultOf op) := by
  induction ops generalizing c operands with
  | nil =>
      cases hreduce
      exact ⟨c, h, .inl rfl⟩
  | cons op ops ih =>
      rw [reduceAll_cons, bind_eq_ok_iff] at hreduce
      obtain ⟨operands₁, hfirst, hrest⟩ := hreduce
      obtain ⟨hstands, hfits'⟩ := h.of_reduce (hfits op rfl) hfirst
      obtain ⟨c', hc', hcases⟩ := ih hstands hfits' hrest
      refine ⟨c', hc', .inr ?_⟩
      rcases hcases with rfl | ⟨op', hop', rfl⟩
      · exact ⟨op, by simp, rfl⟩
      · exact ⟨op', List.mem_cons_of_mem _ hop', rfl⟩

/-- A loop that applies everything on top gets to a sum in front of a frame that
is no operator. -/
theorem Stands.exists_sum
    {frames : List Frame} {operands : List Operand} {w : List Token}
    (h : Stands .primary frames operands w) :
    ∃ ops rest, frames = waiting ops ++ rest ∧ topOperator? rest = none ∧
      ∀ operands', reduceAll ops operands = .ok operands' →
        Stands .sum rest operands' w := by
  obtain ⟨ops, rest, rfl, htop⟩ := exists_waiting_append_of_none frames
  refine ⟨ops, rest, rfl, htop, ?_⟩
  intro operands' hreduce
  obtain ⟨c', ⟨below, u, v, t, hoperands, hbegun, ht, hheight, hw⟩, -⟩ :=
    h.of_reduceAll (fits_primary _) hreduce
  exact ⟨below, u, v, t, hoperands, hbegun, ht.toSum, hheight, hw⟩

/-! ## The loops -/

theorem Stands.addBinary
    {frames : List Frame} {operands : List Operand} {w : List Token}
    {s : OperatorSymbol} {yard : Yard}
    (h : Stands .primary frames operands w)
    (hadd : Yard.addBinary s.binary frames operands = .ok yard) :
    Begun yard.frames yard.operands (w ++ [.operator s]) := by
  obtain ⟨ops, rest, rfl, hops, hrest⟩ :=
    exists_waiting_append (fun op => Yard.yieldsTo op s.binary) frames
  rw [addBinary_waiting_append hops hrest, bind_eq_ok_iff] at hadd
  obtain ⟨operands', hreduce, ⟨⟩⟩ := hadd
  obtain ⟨c', ⟨below, u, v, t, rfl, hbegun, ht, -, rfl⟩, hc'⟩ :=
    h.of_reduceAll (fits_primary _) hreduce
  -- The phrase on top is a primary or was built by an operator that yields.
  have hrank : (leftOperand s.binary).rank ≤ c'.rank := by
    rcases hc' with rfl | ⟨op, hop, rfl⟩
    · cases s <;> decide
    · exact yieldsTo_eq_true_iff.mp (hops op hop)
  rw [List.append_assoc]
  exact .binary hbegun rfl (ht.loosen_le hrank) hrest

theorem Stands.addComma
    {frames : List Frame} {operands : List Operand} {w : List Token} {yard : Yard}
    (h : Stands .primary frames operands w)
    (hadd : Yard.addComma frames operands = .ok yard) :
    Begun yard.frames yard.operands (w ++ [.comma]) := by
  obtain ⟨ops, rest, rfl, htop, hsum⟩ := h.exists_sum
  rw [addComma_waiting_append, bind_eq_ok_iff] at hadd
  obtain ⟨operands', hreduce, hrest⟩ := hadd
  obtain ⟨below, u, v, t, rfl, hbegun, ht, -, rfl⟩ := hsum operands' hreduce
  cases rest with
  | nil => cases hrest
  | cons frame rest =>
      cases frame with
      | operator op => cases htop
      | paren => cases hrest
      | call name count =>
          cases hrest
          rw [List.append_assoc]
          exact .argument hbegun ht

/-- The frame of an open call stands for the head of the call and its finished
arguments. -/
theorem Begun.exists_arguments
    {name : String} {count : Nat} {frames : List Frame} {operands : List Operand}
    {w : List Token} (h : Begun (.call name count :: frames) operands w) :
    ∃ arguments below u, count = arguments.length + 1 ∧
      operands = argumentOperands arguments ++ below ∧
      Begun frames below u ∧ (∀ a ∈ arguments, Derives .sum a.1 a.2) ∧
      w = u ++ .identifier name :: .openParen ::
        arguments.flatMap (fun a => a.1 ++ [.comma]) := by
  generalize hframes : Frame.call name count :: frames = frames' at h
  induction h generalizing count with
  | start => cases hframes
  | paren => cases hframes
  | sign => cases hframes
  | binary => cases hframes
  | call name' h =>
      cases hframes
      exact ⟨[], _, _, rfl, rfl, h, by simp, rfl⟩
  | @argument _ operands w v name' count' t h ht ih =>
      cases hframes
      obtain ⟨arguments, below, u, rfl, rfl, hbegun, hargs, rfl⟩ := ih rfl
      have hall : ∀ a ∈ arguments ++ [(v, t)], Derives .sum a.1 a.2 :=
        List.forall_mem_append.mpr ⟨hargs, List.forall_mem_singleton.mpr ht⟩
      exact ⟨arguments ++ [(v, t)], below, u, by simp, by simp [argumentOperands], hbegun,
        hall, by simp⟩

/-- Words with a comma behind each but the last are the words with commas in
between. -/
theorem intercalate_comma_append (words : List (List Token)) (last : List Token) :
    [Token.comma].intercalate (words ++ [last]) =
      words.flatMap (fun w => w ++ [.comma]) ++ last := by
  induction words with
  | nil => simp
  | cons w words ih =>
      rw [List.cons_append, List.intercalate_cons_of_ne_nil (by simp), ih]
      simp

theorem Begun.stands_of_closeCall
    {name : String} {arguments : List (List Token × Expr)} {frames : List Frame}
    {below : List Operand} {u : List Token} {yard : Yard}
    (h : Begun frames below u) (hargs : ∀ a ∈ arguments, Derives .sum a.1 a.2)
    (hclose : Yard.closeCall name arguments.length frames
      (argumentOperands arguments ++ below) = .ok yard) :
    Stands .primary yard.frames yard.operands
      (u ++ .identifier name :: .openParen ::
        ([.comma].intercalate (arguments.map Prod.fst) ++ [.closeParen])) := by
  rw [closeCall_argumentOperands, bind_eq_ok_iff] at hclose
  obtain ⟨operands', hpush, ⟨⟩⟩ := hclose
  obtain ⟨rfl, hheight⟩ := pushTree_eq_ok hpush
  exact ⟨below, u, _, _, rfl, h, .call name arguments hargs, hheight, rfl⟩

theorem Stands.addCloseParen
    {frames : List Frame} {operands : List Operand} {w : List Token} {yard : Yard}
    (h : Stands .primary frames operands w)
    (hadd : Yard.addCloseParen frames operands = .ok yard) :
    Stands .primary yard.frames yard.operands (w ++ [.closeParen]) := by
  obtain ⟨ops, rest, rfl, htop, hsum⟩ := h.exists_sum
  rw [addCloseParen_waiting_append, bind_eq_ok_iff] at hadd
  obtain ⟨operands', hreduce, hrest⟩ := hadd
  obtain ⟨below, u, v, t, rfl, hbegun, ht, hheight, rfl⟩ := hsum operands' hreduce
  cases rest with
  | nil => cases hrest
  | cons frame rest =>
      cases frame with
      | operator op => cases htop
      | paren =>
          cases hrest
          cases hbegun with
          | @paren _ _ u hbegun =>
              exact ⟨below, u, .openParen :: (v ++ [.closeParen]), t, rfl, hbegun,
                .group ht, hheight, by simp⟩
      | call name count =>
          obtain ⟨arguments, below, u, rfl, rfl, houter, hargs, rfl⟩ := hbegun.exists_arguments
          have hall : ∀ a ∈ arguments ++ [(v, t)], Derives .sum a.1 a.2 :=
            List.forall_mem_append.mpr ⟨hargs, List.forall_mem_singleton.mpr ht⟩
          have hclose : Yard.closeCall name (arguments ++ [(v, t)]).length rest
              (argumentOperands (arguments ++ [(v, t)]) ++ below) = .ok yard := by
            simpa [Yard.addCloseParen, argumentOperands] using hrest
          have hstands := houter.stands_of_closeCall hall hclose
          rw [List.map_append, List.map_singleton, intercalate_comma_append,
            List.flatMap_map] at hstands
          simpa using hstands

/-- What comes out at the end is the tree of all tokens. -/
theorem Stands.derives_of_finish
    {frames : List Frame} {operands : List Operand} {w : List Token} {t : Expr}
    (h : Stands .primary frames operands w)
    (hfinish : Yard.finish frames operands = .ok t) :
    Derives .sum w t ∧ t.height ≤ maxTreeHeight := by
  obtain ⟨ops, rest, rfl, htop, hsum⟩ := h.exists_sum
  rw [finish_waiting_append, bind_eq_ok_iff] at hfinish
  obtain ⟨operands', hreduce, hrest⟩ := hfinish
  obtain ⟨below, u, v, t', rfl, hbegun, ht, hheight, rfl⟩ := hsum operands' hreduce
  cases rest with
  | nil =>
      cases hbegun
      cases hrest
      exact ⟨ht, hheight⟩
  | cons frame rest =>
      cases frame with
      | operator op => cases htop
      | paren => cases hrest
      | call name count => cases hrest

/-! ## Steps -/

/-- The tokens `w` have led to a state of the parser. -/
inductive Consumed (w : List Token) : Parsing → Prop where
  | begun {frames : List Frame} {operands : List Operand} (h : Begun frames operands w) :
      Consumed w ⟨⟨operands, frames⟩, true, w.getLast?⟩
  | stands {frames : List Frame} {operands : List Operand}
      (h : Stands .primary frames operands w) :
      Consumed w ⟨⟨operands, frames⟩, false, w.getLast?⟩

theorem Consumed.begun_append
    {w : List Token} {yard : Yard} {token : Token}
    (h : Begun yard.frames yard.operands (w ++ [token])) :
    Consumed (w ++ [token]) ⟨yard, true, some token⟩ := by
  have hconsumed := Consumed.begun h
  rwa [List.getLast?_concat] at hconsumed

theorem Consumed.stands_append
    {w : List Token} {yard : Yard} {token : Token}
    (h : Stands .primary yard.frames yard.operands (w ++ [token])) :
    Consumed (w ++ [token]) ⟨yard, false, some token⟩ := by
  have hconsumed := Consumed.stands h
  rwa [List.getLast?_concat] at hconsumed

theorem Begun.stands_operand
    {frames : List Frame} {operands : List Operand} {w : List Token} {token : Token}
    {t : Expr} (h : Begun frames operands w) (ht : Derives .primary [token] t)
    (hheight : t.height = 1) :
    Stands .primary frames (⟨t, 1⟩ :: operands) (w ++ [token]) := by
  refine ⟨operands, w, [token], t, ?_, h, ht, ?_, rfl⟩
  · rw [operandOf, hheight]
  · rw [hheight]
    decide

theorem Derives.ne_nil
    {c : Category} {w : List Token} {t : Expr} (h : Derives c w t) : w ≠ [] := by
  induction h with
  | loosen hrank h ih => exact ih
  | binary => simp
  | _ => exact List.cons_ne_nil _ _

/-- A primary that ends in a name is that name. -/
theorem Derives.eq_identifier_of_getLast?
    {w : List Token} {t : Expr} {name : String} (h : Derives .primary w t)
    (hlast : w.getLast? = some (.identifier name)) :
    w = [.identifier name] ∧ t = .identifier name := by
  generalize hc : Category.primary = c at h
  cases h with
  | number h => simp at hlast
  | identifier name' =>
      obtain rfl : name' = name := by simpa using hlast
      exact ⟨rfl, rfl⟩
  | call name' arguments h => simp [List.getLast?_cons, List.getLast?_append] at hlast
  | group h => simp [List.getLast?_cons, List.getLast?_append] at hlast
  | sign hs h => cases hc
  | @binary s => cases s <;> cases hc
  | @loosen c d _ _ hrank h =>
      subst hc
      cases d <;> simp [Category.rank] at hrank

/-- A name that was just read is the operand on top. -/
theorem Stands.exists_identifier
    {frames : List Frame} {operands : List Operand} {w : List Token} {name : String}
    (h : Stands .primary frames operands w) (hlast : w.getLast? = some (.identifier name)) :
    ∃ below u, operands = operandOf (.identifier name) :: below ∧ Begun frames below u ∧
      w = u ++ [.identifier name] := by
  obtain ⟨below, u, v, t, rfl, hbegun, ht, -, rfl⟩ := h
  rw [List.getLast?_append, List.getLast?_eq_some_getLast ht.ne_nil, Option.some_or,
    ← List.getLast?_eq_some_getLast ht.ne_nil] at hlast
  obtain ⟨rfl, rfl⟩ := ht.eq_identifier_of_getLast? hlast
  exact ⟨below, u, rfl, hbegun, rfl⟩

theorem Stands.addCall
    {frames : List Frame} {operands : List Operand} {w : List Token} {yard : Yard}
    {name : String} (h : Stands .primary frames operands w)
    (hlast : w.getLast? = some (.identifier name))
    (hadd : Yard.addCall ⟨operands, frames⟩ = .ok yard) :
    Begun yard.frames yard.operands (w ++ [.openParen]) := by
  obtain ⟨below, u, rfl, hbegun, rfl⟩ := h.exists_identifier hlast
  cases hadd
  rw [List.append_assoc]
  exact .call name hbegun

theorem Begun.addEmptyCall
    {name : String} {count : Nat} {frames : List Frame} {operands : List Operand}
    {w : List Token} {yard : Yard}
    (h : Begun (.call name count :: frames) operands w)
    (hlast : w.getLast? = some .openParen)
    (hadd : Yard.addEmptyCall ⟨operands, .call name count :: frames⟩ = .ok yard) :
    Stands .primary yard.frames yard.operands (w ++ [.closeParen]) := by
  cases h with
  | @call _ _ u name h =>
      have hnone : ∀ a ∈ ([] : List (List Token × Expr)), Derives .sum a.1 a.2 := by simp
      simpa using h.stands_of_closeCall hnone hadd
  | argument h ht => simp [List.getLast?_append] at hlast

theorem Begun.step
    {frames : List Frame} {operands : List Operand} {w : List Token} {token : Token}
    {p : Parsing} (h : Begun frames operands w)
    (hstep : Parsing.stepOperand ⟨⟨operands, frames⟩, true, w.getLast?⟩ token = .ok p) :
    Consumed (w ++ [token]) p := by
  cases token with
  | number literal =>
      cases hread : Numeral.read? literal.toList with
      | none => simp [Parsing.stepOperand, hread] at hstep
      | some v =>
          simp only [Parsing.stepOperand, hread, Except.ok.injEq] at hstep
          subst hstep
          exact .stands_append (h.stands_operand (.number hread) rfl)
  | identifier name =>
      cases hstep
      exact .stands_append (h.stands_operand (.identifier name) rfl)
  | operator s =>
      simp only [Parsing.stepOperand, bind_eq_ok_iff] at hstep
      obtain ⟨yard, hadd, ⟨⟩⟩ := hstep
      unfold Yard.addUnary at hadd
      split at hadd
      · next op hs =>
          cases hadd
          exact .begun_append (.sign h hs)
      · cases hadd
  | openParen =>
      cases hstep
      exact .begun_append (.paren h)
  | closeParen =>
      simp only [Parsing.stepOperand] at hstep
      split at hstep
      · next hopened =>
          simp only [bind_eq_ok_iff] at hstep
          obtain ⟨yard, hadd, ⟨⟩⟩ := hstep
          simp only [Parsing.justOpenedCall, Bool.and_eq_true, beq_iff_eq] at hopened
          obtain ⟨hlast, hframes⟩ := hopened
          split at hframes
          · exact .stands_append (h.addEmptyCall hlast hadd)
          · cases hframes
      · cases hstep
  | comma => cases hstep

theorem Stands.step
    {frames : List Frame} {operands : List Operand} {w : List Token} {token : Token}
    {p : Parsing} (h : Stands .primary frames operands w)
    (hstep : Parsing.stepOperator ⟨⟨operands, frames⟩, false, w.getLast?⟩ token = .ok p) :
    Consumed (w ++ [token]) p := by
  cases token with
  | number literal => cases hstep
  | identifier name => cases hstep
  | operator s =>
      simp only [Parsing.stepOperator, bind_eq_ok_iff] at hstep
      obtain ⟨yard, hadd, ⟨⟩⟩ := hstep
      exact .begun_append (h.addBinary hadd)
  | closeParen =>
      simp only [Parsing.stepOperator, bind_eq_ok_iff] at hstep
      obtain ⟨yard, hadd, ⟨⟩⟩ := hstep
      exact .stands_append (h.addCloseParen hadd)
  | comma =>
      simp only [Parsing.stepOperator, bind_eq_ok_iff] at hstep
      obtain ⟨yard, hadd, ⟨⟩⟩ := hstep
      exact .begun_append (h.addComma hadd)
  | openParen =>
      simp only [Parsing.stepOperator] at hstep
      split at hstep
      · next hnamed =>
          simp only [bind_eq_ok_iff] at hstep
          obtain ⟨yard, hadd, ⟨⟩⟩ := hstep
          unfold Parsing.justNamed at hnamed
          split at hnamed
          · next name hlast => exact .begun_append (h.addCall hlast hadd)
          · cases hnamed
      · cases hstep

theorem Consumed.step
    {w : List Token} {token : Token} {p p' : Parsing}
    (h : Consumed w p) (hstep : p.step token = .ok p') : Consumed (w ++ [token]) p' := by
  cases h with
  | begun h => exact h.step hstep
  | stands h => exact h.step hstep

/-! ## Runs -/

theorem Consumed.run
    {w tokens : List Token} {p p' : Parsing}
    (h : Consumed w p) (hrun : tokens.foldlM Parsing.step p = .ok p') :
    Consumed (w ++ tokens) p' := by
  induction tokens generalizing w p with
  | nil =>
      cases hrun
      rwa [List.append_nil]
  | cons token tokens ih =>
      rw [List.foldlM_cons, bind_eq_ok_iff] at hrun
      obtain ⟨p₁, hstep, hrest⟩ := hrun
      simpa using ih (h.step hstep) hrest

theorem consumed_of_run
    {tokens : List Token} {p : Parsing}
    (hrun : tokens.foldlM Parsing.step .start = .ok p) : Consumed tokens p := by
  simpa using Consumed.run (.begun .start) hrun

/-- A tree that is parsed from tokens is derived from them, and it is not too
high. -/
theorem derives_of_ofTokens
    {w : List Token} {t : Expr} (h : Expr.ofTokens w = .ok t) :
    Derives .sum w t ∧ t.height ≤ maxTreeHeight := by
  rw [Expr.ofTokens, bind_eq_ok_iff] at h
  obtain ⟨p, hrun, hfinish⟩ := h
  cases consumed_of_run hrun with
  | begun h => cases hfinish
  | stands h => exact h.derives_of_finish hfinish

end Grammar
end Calculator
