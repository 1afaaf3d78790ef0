import Calculator.Expr.Basic
import Calculator.Numeral
import Calculator.Token.Scan

/-!
# Parsing with two stacks

Operators and open parentheses wait on one stack until it is known which
operands they apply to; operands, each with the height of its tree, wait on the
other.  Each token moves the parser on by one step, so a parse is a fold over
the tokens.
-/

namespace Calculator

/-- The greatest height of a tree that the parser builds. -/
def maxTreeHeight : Nat := 1000

inductive Operator where
  | unary (op : UnaryOperator)
  | binary (op : BinaryOperator)
  deriving DecidableEq

def Operator.precedence : Operator → Nat
  | unary _ => UnaryOperator.precedence
  | binary op => op.precedence

/-- A tree that waits for an operator, with its height. -/
structure Operand where
  tree : Expr
  height : Nat

/-- What waits for operands or for a closing parenthesis. -/
inductive Frame where
  | operator (op : Operator)
  | paren
  /-- An open call, with the number of arguments begun so far. -/
  | call (name : String) (count : Nat)

/-- The two stacks, each with its top in front. -/
structure Yard where
  operands : List Operand
  frames : List Frame

namespace Yard

/-- Puts a tree on the operands, unless it is too high. -/
def pushTree (tree : Expr) (height : Nat) (operands : List Operand) :
    Except EvalError (List Operand) :=
  if maxTreeHeight < height then .error .tooDeep else .ok (⟨tree, height⟩ :: operands)

/-- Applies an operator to the operands on top. -/
def reduce : Operator → List Operand → Except EvalError (List Operand)
  | .unary op, x :: operands => pushTree (.unary op x.tree) (x.height + 1) operands
  | .binary op, y :: x :: operands =>
    pushTree (.binary op x.tree y.tree) (max x.height y.height + 1) operands
  | _, _ => .error .abruptEnd

/-- Whether an operator on the stack is applied before a new binary operator is
put on it: it binds tighter, or equally tight and the new one groups to the
left. -/
def yieldsTo (waiting : Operator) (arriving : BinaryOperator) : Bool :=
  arriving.precedence < waiting.precedence ||
    (waiting.precedence == arriving.precedence && !arriving.isRightAssociative)

/-- Puts a binary operator on the frames, after applying those that bind
tighter. -/
def addBinary (arriving : BinaryOperator) :
    List Frame → List Operand → Except EvalError Yard
  | .operator op :: frames, operands =>
    if yieldsTo op arriving then do
      addBinary arriving frames (← reduce op operands)
    else .ok ⟨operands, .operator (.binary arriving) :: .operator op :: frames⟩
  | frames, operands => .ok ⟨operands, .operator (.binary arriving) :: frames⟩

/-- Puts a sign on the frames; only two of the symbols are signs. -/
def addUnary (symbol : OperatorSymbol) (yard : Yard) : Except EvalError Yard :=
  match symbol.unary? with
  | some op => .ok { yard with frames := .operator (.unary op) :: yard.frames }
  | none => .error (.misplacedOperator symbol.text)

/-- Turns the identifier on top of the operands into the head of a call. -/
def addCall (yard : Yard) : Except EvalError Yard :=
  match yard.operands with
  | ⟨.identifier name, _⟩ :: operands => .ok ⟨operands, .call name 1 :: yard.frames⟩
  | _ => .error (.unexpected "(")

/-- Gathers the last `count` operands as the arguments of a call. -/
def closeCall (name : String) (count : Nat) (frames : List Frame)
    (operands : List Operand) : Except EvalError Yard :=
  if operands.length < count then .error .abruptEnd
  else do
    let arguments := (operands.take count).reverse
    let height := (arguments.map Operand.height).foldl max 0 + 1
    let operands ←
      pushTree (.call name (arguments.map Operand.tree)) height (operands.drop count)
    .ok ⟨operands, frames⟩

/-- Applies the waiting operators down to the parenthesis that is closed. -/
def addCloseParen : List Frame → List Operand → Except EvalError Yard
  | [], _ => .error (.missing "(")
  | .paren :: frames, operands => .ok ⟨operands, frames⟩
  | .call name count :: frames, operands => closeCall name count frames operands
  | .operator op :: frames, operands => do
    addCloseParen frames (← reduce op operands)

/-- Closes a call before any argument was begun. -/
def addEmptyCall (yard : Yard) : Except EvalError Yard :=
  match yard.frames with
  | .call name _ :: frames => closeCall name 0 frames yard.operands
  | _ => .error (.unexpected ")")

/-- Applies the waiting operators down to the call whose next argument begins. -/
def addComma : List Frame → List Operand → Except EvalError Yard
  | .call name count :: frames, operands => .ok ⟨operands, .call name (count + 1) :: frames⟩
  | .operator op :: frames, operands => do
    addComma frames (← reduce op operands)
  | _, _ => .error (.unexpected ",")

/-- Applies all waiting operators and takes the one operand that is left. -/
def finish : List Frame → List Operand → Except EvalError Expr
  | [], [x] => .ok x.tree
  | [], _ => .error .abruptEnd
  | .operator op :: frames, operands => do
    finish frames (← reduce op operands)
  | _, _ => .error (.missing ")")

end Yard

/-! ## Steps -/

/-- A parse in progress. -/
structure Parsing where
  yard : Yard
  /-- Whether an operand has to come next, rather than an operator. -/
  expectsOperand : Bool
  previous : Option Token

namespace Parsing

def start : Parsing :=
  ⟨⟨[], []⟩, true, none⟩

/-- Whether the previous token opened a call. -/
def justOpenedCall (p : Parsing) : Bool :=
  p.previous == some .openParen &&
    match p.yard.frames with
    | .call _ _ :: _ => true
    | _ => false

/-- Whether the previous token was a name. -/
def justNamed (p : Parsing) : Bool :=
  match p.previous with
  | some (.identifier _) => true
  | _ => false

/-- The step where an operand has to come next. -/
def stepOperand (p : Parsing) (t : Token) : Except EvalError Parsing :=
  let push (tree : Expr) : Yard := { p.yard with operands := ⟨tree, 1⟩ :: p.yard.operands }
  match t with
  | .number literal =>
    match Numeral.read? literal.toList with
    | some v => .ok ⟨push (.number v), false, some t⟩
    | none => .error (.invalidNumber literal)
  | .identifier name => .ok ⟨push (.identifier name), false, some t⟩
  | .operator symbol => do .ok ⟨← p.yard.addUnary symbol, true, some t⟩
  | .openParen => .ok ⟨{ p.yard with frames := .paren :: p.yard.frames }, true, some t⟩
  | .closeParen =>
    if p.justOpenedCall then do .ok ⟨← p.yard.addEmptyCall, false, some t⟩
    else .error (.unexpected t.content)
  | .comma => .error (.unexpected t.content)

/-- The step where an operator has to come next. -/
def stepOperator (p : Parsing) (t : Token) : Except EvalError Parsing :=
  match t with
  | .operator symbol => do
    .ok ⟨← Yard.addBinary symbol.binary p.yard.frames p.yard.operands, true, some t⟩
  | .closeParen => do
    .ok ⟨← Yard.addCloseParen p.yard.frames p.yard.operands, false, some t⟩
  | .comma => do .ok ⟨← Yard.addComma p.yard.frames p.yard.operands, true, some t⟩
  | .openParen =>
    if p.justNamed then do .ok ⟨← p.yard.addCall, true, some t⟩
    else .error (.unexpected t.content)
  | .number _ => .error (.unexpected t.content)
  | .identifier _ => .error (.unexpected t.content)

/-- The parse after one more token. -/
def step (p : Parsing) (t : Token) : Except EvalError Parsing :=
  if p.expectsOperand then p.stepOperand t else p.stepOperator t

/-- The tree, if the tokens may end here. -/
def finish (p : Parsing) : Except EvalError Expr :=
  if p.expectsOperand then .error .abruptEnd
  else Yard.finish p.yard.frames p.yard.operands

end Parsing

namespace Expr

/-- The tree of a sequence of tokens. -/
def ofTokens (tokens : List Token) : Except EvalError Expr := do
  (← tokens.foldlM Parsing.step .start).finish

/-- The tree of a scanned text.  An error at a token comes before the one of the
character that stopped the scan, because it stands further left. -/
def ofScanned (scanned : Token.Scanned) : Except EvalError Expr := do
  let p ← scanned.tokens.foldlM Parsing.step .start
  match scanned.stopped with
  | some c => .error (.invalidCharacter c)
  | none => p.finish

/-- Parses an arithmetic expression. -/
def parse (text : String) : Except EvalError Expr :=
  ofScanned (Token.scan text.toList)

end Expr
end Calculator
