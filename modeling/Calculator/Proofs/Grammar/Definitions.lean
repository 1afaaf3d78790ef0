import Calculator.Expr.Yard

/-!
# The precedence grammar

The expressions as a grammar over tokens, with the tree that each phrase stands
for:

* sum: `prod {(+|-) prod}`, grouped to the left
* product: `unary {(*|/|%) unary}`, grouped to the left
* unary: `(+|-) unary | pow`
* power: `primary [(^|**) unary]`
* primary: a number, a name, a call with arguments between commas, or a sum in
  parentheses

Nothing here refers to stacks or to a direction of reading.
-/

namespace Calculator
namespace Grammar

/-- The syntactic categories, from the loosest to the tightest. -/
inductive Category where
  | sum
  | product
  | unary
  | power
  | primary
  deriving DecidableEq, Repr

/-- The place of a category in the order of tightness. -/
def Category.rank : Category → Nat
  | sum => 0
  | product => 1
  | unary => 2
  | power => 3
  | primary => 4

/-- The category of the phrases that a binary operator builds. -/
def result : BinaryOperator → Category
  | .addition | .subtraction => .sum
  | .multiplication | .division | .modulo => .product
  | .exponentiation => .power

/-- The category of the left operand: that of the result itself where equal
operators group to the left. -/
def leftOperand : BinaryOperator → Category
  | .addition | .subtraction => .sum
  | .multiplication | .division | .modulo => .product
  | .exponentiation => .primary

/-- The category of the right operand.  A power takes a sign there, and through
it another power. -/
def rightOperand : BinaryOperator → Category
  | .addition | .subtraction => .product
  | .multiplication | .division | .modulo => .unary
  | .exponentiation => .unary

/-- The tokens `w` are a phrase of the category `c` and stand for the tree `t`. -/
inductive Derives : (c : Category) → (w : List Token) → (t : Expr) → Prop where
  | number {literal : String} {v : Float} (h : Numeral.read? literal.toList = some v) :
      Derives .primary [.number literal] (.number v)
  | identifier (name : String) :
      Derives .primary [.identifier name] (.identifier name)
  /-- A call, given by the phrases of its arguments with their trees. -/
  | call (name : String) (arguments : List (List Token × Expr))
      (h : ∀ a ∈ arguments, Derives .sum a.1 a.2) :
      Derives .primary
        (.identifier name :: .openParen ::
          ([.comma].intercalate (arguments.map Prod.fst) ++ [.closeParen]))
        (.call name (arguments.map Prod.snd))
  | group {w : List Token} {t : Expr} (h : Derives .sum w t) :
      Derives .primary (.openParen :: (w ++ [.closeParen])) t
  | sign {s : OperatorSymbol} {op : UnaryOperator} {w : List Token} {t : Expr}
      (hs : s.unary? = some op) (h : Derives .unary w t) :
      Derives .unary (.operator s :: w) (.unary op t)
  | binary {s : OperatorSymbol} {w₁ w₂ : List Token} {a b : Expr}
      (hleft : Derives (leftOperand s.binary) w₁ a)
      (hright : Derives (rightOperand s.binary) w₂ b) :
      Derives (result s.binary) (w₁ ++ .operator s :: w₂) (.binary s.binary a b)
  /-- A phrase of a tighter category is one of every looser category. -/
  | loosen {c d : Category} {w : List Token} {t : Expr}
      (hrank : c.rank < d.rank) (h : Derives d w t) : Derives c w t

theorem Derives.loosen_le
    {c d : Category} {w : List Token} {t : Expr}
    (hrank : c.rank ≤ d.rank) (h : Derives d w t) : Derives c w t := by
  rcases Nat.lt_or_eq_of_le hrank with hlt | heq
  · exact .loosen hlt h
  · have hcd : c = d := by
      cases c <;> cases d <;> simp_all [Category.rank]
    exact hcd ▸ h

theorem Derives.toSum
    {c : Category} {w : List Token} {t : Expr} (h : Derives c w t) :
    Derives .sum w t :=
  h.loosen_le (Nat.zero_le _)

end Grammar
end Calculator
