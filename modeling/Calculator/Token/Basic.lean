/-!
# Tokens

The words of an expression.  An operator token is one of seven symbols, of which
two spell exponentiation.
-/

namespace Calculator

/-- The spellings of the operators. -/
inductive OperatorSymbol where
  | plus
  | minus
  | star
  | slash
  | percent
  | caret
  | starStar
  deriving DecidableEq, Repr

namespace OperatorSymbol

def text : OperatorSymbol → String
  | plus => "+"
  | minus => "-"
  | star => "*"
  | slash => "/"
  | percent => "%"
  | caret => "^"
  | starStar => "**"

/-- The symbol with a given spelling. -/
def ofText? (s : String) : Option OperatorSymbol :=
  [plus, minus, star, slash, percent, caret, starStar].find? (·.text == s)

end OperatorSymbol

/-- A token of an expression, with the text of names and literals. -/
inductive Token where
  | identifier (name : String)
  | number (literal : String)
  | operator (symbol : OperatorSymbol)
  | openParen
  | closeParen
  | comma
  deriving DecidableEq, Repr

/-- The sorts of token that a listing tells apart. -/
inductive TokenKind where
  | identifier
  | number
  | operator
  | punctuation
  deriving DecidableEq, Repr

namespace Token

/-- The token as it stands in the text. -/
def content : Token → String
  | identifier name => name
  | number literal => literal
  | operator symbol => symbol.text
  | openParen => "("
  | closeParen => ")"
  | comma => ","

def kind : Token → TokenKind
  | identifier _ => .identifier
  | number _ => .number
  | operator _ => .operator
  | openParen => .punctuation
  | closeParen => .punctuation
  | comma => .punctuation

end Token
end Calculator
