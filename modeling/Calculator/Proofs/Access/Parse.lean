import Calculator.Expr.Yard
import Calculator.Proofs.Access.Checked
import Calculator.Proofs.Access.Scan
import Calculator.Proofs.Text.Ascii
import Mathlib.Data.Nat.PSub

/-!
# Parsing by slices

The digits of a number in another radix are cut off behind two bytes, which are two characters if
the literal announces a radix.  The arguments of a call are split off the operands at an index
that is taken from their number; that there are enough of them has been tested before.
-/

namespace Calculator
namespace Access

/-! ## Number literals -/

/-- The radix that the first two bytes of a literal announce, if they are characters. -/
def radixOfStart? (content : String) : Option Nat :=
  match (upTo? content 2).map fun start => start.toList.map Char.toLower with
  | some ['0', 'x'] => some 16
  | some ['0', 'o'] => some 8
  | some ['0', 'b'] => some 2
  | _ => none

/-- The number that a literal stands for. -/
def readNumber? (content : String) : Option (Option Float) :=
  match radixOfStart? content with
  | some radix =>
    (from? content 2).map fun digits => (Radix.read? radix digits.toList).map Binary64.ofInt
  | none => some (Decimal.read? content.toList)

/-! ## Stacks -/

/-- Cuts a list in two at an index. -/
def splitOff? {α : Type} (xs : List α) (i : Nat) : Option (List α × List α) :=
  if i ≤ xs.length then some (xs.take i, xs.drop i) else none

/-- Gathers the arguments of a call.  The operands are split where they stand in the order in
which they came. -/
def closeCall? (name : String) (count : Nat) (frames : List Frame) (operands : List Operand) :
    Checked Yard :=
  if operands.length < count then .of (.error .abruptEnd)
  else do
    let index ← .access (Nat.psub operands.length count)
    let (rest, arguments) ← .access (splitOff? operands.reverse index)
    let height := (arguments.map Operand.height).foldl max 0 + 1
    let operands ←
      .of (Yard.pushTree (.call name (arguments.map Operand.tree)) height rest.reverse)
    .of (.ok ⟨operands, frames⟩)

/-- Applies the waiting operators down to the parenthesis that is closed. -/
def addCloseParen? : List Frame → List Operand → Checked Yard
  | [], _ => .of (.error (.missing "("))
  | .paren :: frames, operands => .of (.ok ⟨operands, frames⟩)
  | .call name count :: frames, operands => closeCall? name count frames operands
  | .operator op :: frames, operands => do
    addCloseParen? frames (← .of (Yard.reduce op operands))

/-- Closes a call before any argument was begun. -/
def addEmptyCall? (yard : Yard) : Checked Yard :=
  match yard.frames with
  | .call name _ :: frames => closeCall? name 0 frames yard.operands
  | _ => .of (.error (.unexpected ")"))

/-! ## Steps -/

/-- The step where an operand has to come next.  Only a number and the end of a call make
accesses. -/
def stepOperand? (p : Parsing) (t : Token) : Checked Parsing :=
  match t with
  | .number literal => do
    match ← .access (readNumber? literal) with
    | some v =>
      .of (.ok ⟨{ p.yard with operands := ⟨.number v, 1⟩ :: p.yard.operands }, false, some t⟩)
    | none => .of (.error (.invalidNumber literal))
  | .closeParen =>
    if p.justOpenedCall then do .of (.ok ⟨← addEmptyCall? p.yard, false, some t⟩)
    else .of (.error (.unexpected t.content))
  | _ => .of (p.stepOperand t)

/-- The step where an operator has to come next.  Only a closing parenthesis makes accesses. -/
def stepOperator? (p : Parsing) (t : Token) : Checked Parsing :=
  match t with
  | .closeParen => do
    .of (.ok ⟨← addCloseParen? p.yard.frames p.yard.operands, false, some t⟩)
  | _ => .of (p.stepOperator t)

def step? (p : Parsing) (t : Token) : Checked Parsing :=
  if p.expectsOperand then stepOperand? p t else stepOperator? p t

/-- Parses an arithmetic expression. -/
def parse? (text : String) : Checked Expr := do
  let scanned ← .access (scan? text)
  let p ← scanned.tokens.foldlM step? .start
  match scanned.stopped with
  | some c => .of (.error (.invalidCharacter c))
  | none => .of p.finish

/-! ## Literals in range -/

theorem eq_of_toLower (c : Char) :
    (c.toLower = '0' → c = '0') ∧ (c.toLower = 'x' → c = 'x' ∨ c = 'X') ∧
      (c.toLower = 'o' → c = 'o' ∨ c = 'O') ∧ (c.toLower = 'b' → c = 'b' ∨ c = 'B') := by
  rcases Nat.lt_or_ge c.toNat 128 with hascii | hbeyond
  · refine Text.forall_ascii (P := fun c => (c.toLower = '0' → c = '0') ∧
      (c.toLower = 'x' → c = 'x' ∨ c = 'X') ∧ (c.toLower = 'o' → c = 'o' ∨ c = 'O') ∧
      (c.toLower = 'b' → c = 'b' ∨ c = 'B')) ?_ c hascii
    decide +kernel
  · rw [Text.toLower_of_not_ascii hbeyond]
    exact ⟨id, .inl, .inl, .inl⟩

section Literal

variable {content : String} {letter : Char} {digits : List Char} {radix : Nat}

theorem utf8Size_of_radixOf? (h : Numeral.radixOf? letter = some radix) :
    letter.utf8Size = 1 := by
  unfold Numeral.radixOf? at h
  split_ifs at h with hx ho hb
  · rcases hx with rfl | rfl <;> rfl
  · rcases ho with rfl | rfl <;> rfl
  · rcases hb with rfl | rfl <;> rfl

theorem bytes_zero_letter (h : Numeral.radixOf? letter = some radix) :
    bytes ['0', letter] = 2 := by
  rw [bytes_cons, bytes_cons, utf8Size_of_radixOf? h]
  rfl

/-- Two bytes that announce a radix are two characters. -/
theorem exists_of_map_toLower {mark : Char}
    (h : ((upTo? content 2).map fun start => start.toList.map Char.toLower) = some ['0', mark]) :
    ∃ letter digits, content.toList = '0' :: letter :: digits ∧ letter.toLower = mark := by
  obtain ⟨start, hstart, hlower⟩ := Option.map_eq_some_iff.mp h
  obtain ⟨rest, rfl⟩ := eq_append_of_upTo? hstart
  obtain ⟨zero, letters, hzero, hfirst, hletters⟩ := List.map_eq_cons_iff.mp hlower
  obtain ⟨letter, others, hletter, hsecond, hothers⟩ := List.map_eq_cons_iff.mp hletters
  refine ⟨letter, rest.toList, ?_, hsecond⟩
  rw [String.toList_append, hzero, hletter, List.map_eq_nil_iff.mp hothers,
    (eq_of_toLower zero).1 hfirst]
  rfl

theorem radixOfStart?_eq_some_iff :
    radixOfStart? content = some radix ↔
      ∃ letter digits, content.toList = '0' :: letter :: digits ∧
        Numeral.radixOf? letter = some radix := by
  constructor
  · intro h
    unfold radixOfStart? at h
    split at h
    case h_4 => cases h
    all_goals
      next heq =>
        obtain ⟨letter, digits, hcontent, hlower⟩ := exists_of_map_toLower heq
        obtain ⟨-, hx, ho, hb⟩ := eq_of_toLower letter
        refine ⟨letter, digits, hcontent, ?_⟩
        cases h
        first
        | rcases hx hlower with rfl | rfl <;> rfl
        | rcases ho hlower with rfl | rfl <;> rfl
        | rcases hb hlower with rfl | rfl <;> rfl
  · rintro ⟨letter, digits, hcontent, hradix⟩
    have hstart : upTo? content 2 = some (String.ofList ['0', letter]) := by
      rw [← String.ofList_toList (s := content), hcontent]
      exact upTo?_eq_some (bytes_zero_letter hradix)
    rw [radixOfStart?, hstart, Option.map_some, String.toList_ofList]
    unfold Numeral.radixOf? at hradix
    split_ifs at hradix with hx ho hb
    · rcases hx with rfl | rfl <;> exact hradix
    · rcases ho with rfl | rfl <;> exact hradix
    · rcases hb with rfl | rfl <;> exact hradix

end Literal

/-- The cut behind the mark of a radix is in range. -/
theorem readNumber?_eq (content : String) :
    readNumber? content = some (Numeral.read? content.toList) := by
  rw [readNumber?]
  cases hstart : radixOfStart? content with
  | some radix =>
      obtain ⟨letter, digits, hcontent, hradix⟩ := radixOfStart?_eq_some_iff.mp hstart
      have hrest : from? content 2 = some (String.ofList digits) := by
        rw [← String.ofList_toList (s := content), hcontent]
        exact from?_eq_some (bytes_zero_letter hradix)
      dsimp only
      rw [hrest, hcontent, Numeral.read?, hradix, Option.map_some, String.toList_ofList]
  | none =>
      refine congrArg some ?_
      unfold Numeral.read?
      split
      · next letter digits hcontent =>
          cases hradix : Numeral.radixOf? letter with
          | none => rfl
          | some radix =>
              have hsome := radixOfStart?_eq_some_iff.mpr ⟨letter, digits, hcontent, hradix⟩
              rw [hstart] at hsome
              cases hsome
      · rfl

/-! ## Steps in range -/

theorem splitOff?_reverse {α : Type} (xs : List α) (count : Nat) :
    splitOff? xs.reverse (xs.length - count) =
      some ((xs.drop count).reverse, (xs.take count).reverse) := by
  rw [splitOff?, List.length_reverse, if_pos (Nat.sub_le _ _), List.reverse_drop,
    List.reverse_take]

theorem closeCall?_eq (name : String) (count : Nat) (frames : List Frame)
    (operands : List Operand) :
    closeCall? name count frames operands = .of (Yard.closeCall name count frames operands) := by
  rw [closeCall?, Yard.closeCall]
  by_cases hfew : operands.length < count
  · rw [if_pos hfew, if_pos hfew]
  · have henough : count ≤ operands.length := Nat.le_of_not_lt hfew
    rw [if_neg hfew, if_neg hfew, Nat.psub_eq_sub henough, Checked.access_some, Checked.ok_bind,
      splitOff?_reverse, Checked.access_some, Checked.ok_bind]
    dsimp only
    rw [List.reverse_reverse]
    exact Checked.bind_of fun _ => rfl

theorem addCloseParen?_eq (frames : List Frame) (operands : List Operand) :
    addCloseParen? frames operands = .of (Yard.addCloseParen frames operands) := by
  induction frames generalizing operands with
  | nil => rfl
  | cons frame frames ih =>
      cases frame with
      | paren => rfl
      | call name count => exact closeCall?_eq name count frames operands
      | operator op =>
          rw [addCloseParen?, Yard.addCloseParen]
          exact Checked.bind_of ih

theorem addEmptyCall?_eq (yard : Yard) : addEmptyCall? yard = .of yard.addEmptyCall := by
  obtain ⟨operands, frames⟩ := yard
  match frames with
  | .call name _ :: frames => exact closeCall?_eq name 0 frames operands
  | [] => rfl
  | .paren :: _ => rfl
  | .operator _ :: _ => rfl

theorem stepOperand?_eq (p : Parsing) (t : Token) :
    stepOperand? p t = .of (p.stepOperand t) := by
  cases t with
  | number literal =>
      rw [stepOperand?, Parsing.stepOperand, readNumber?_eq, Checked.access_some, Checked.ok_bind]
      cases Numeral.read? literal.toList with
      | none => rfl
      | some v => rfl
  | closeParen =>
      rw [stepOperand?, Parsing.stepOperand]
      split
      · rw [addEmptyCall?_eq]
        exact Checked.bind_of fun _ => rfl
      · rfl
  | _ => rfl

theorem stepOperator?_eq (p : Parsing) (t : Token) :
    stepOperator? p t = .of (p.stepOperator t) := by
  cases t with
  | closeParen =>
      rw [stepOperator?, Parsing.stepOperator, addCloseParen?_eq]
      exact Checked.bind_of fun _ => rfl
  | _ => rfl

theorem step?_eq (p : Parsing) (t : Token) : step? p t = .of (p.step t) := by
  rw [step?, Parsing.step, stepOperand?_eq, stepOperator?_eq]
  split
  · rfl
  · rfl

/-- Every access of the parser is in range. -/
theorem parse?_eq (text : String) : parse? text = .of (Expr.parse text) := by
  rw [parse?, Expr.parse, Expr.ofScanned, scan?_eq, Checked.access_some, Checked.ok_bind,
    Checked.foldlM_of step?_eq]
  refine Checked.bind_of fun p => ?_
  cases (Token.scan text.toList).stopped with
  | some c => rfl
  | none => rfl

end Access
end Calculator
