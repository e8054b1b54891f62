import Calculator.Expr
import Calculator.Token

/-! The grammar of formulas, as rules on the kinds of tokens. A sum is a chain of products, a
product a chain of factors, and a factor an integer or a sum in parentheses. A chain grows
to the right and its tree to the left, so that the last operator of a chain is its root. -/

namespace Calculator.Grammar

inductive Phrase where
  | chain (tier : Tier)
  | factor
deriving DecidableEq, Repr

/-- What the operators of a tier join. -/
def operand : Tier → Phrase
  | .sum => .chain .product
  | .product => .factor

inductive Derives : Phrase → List Token.Kind → Expr → Prop where
  | integer (value : Value) : Derives .factor [.integer value] (.literal value)
  | parentheses {inside : List Token.Kind} {tree : Expr} :
      Derives (.chain .sum) inside tree →
      Derives .factor (.leftParen :: inside ++ [.rightParen]) tree
  | single {tier : Tier} {kinds : List Token.Kind} {tree : Expr} :
      Derives (operand tier) kinds tree → Derives (.chain tier) kinds tree
  | joined {left right : List Token.Kind} {leftTree rightTree : Expr} (operator : Operator) :
      Derives (.chain operator.tier) left leftTree →
      Derives (operand operator.tier) right rightTree →
      Derives (.chain operator.tier) (left ++ .operator operator :: right)
        (.binary operator leftTree rightTree)

def balance (kinds : List Token.Kind) : Int :=
  kinds.count .leftParen - kinds.count .rightParen

def Within (limit : Nat) (kinds : List Token.Kind) : Prop :=
  ∀ front, front <+: kinds → balance front ≤ limit

theorem Derives.ne_nil {phrase : Phrase} {kinds : List Token.Kind} {tree : Expr}
    (derived : Derives phrase kinds tree) : kinds ≠ [] := by
  induction derived with
  | integer value => simp
  | parentheses inner ih => simp
  | single inner ih => exact ih
  | joined operator left right leftIH rightIH => simp

theorem Derives.balance_eq_zero {phrase : Phrase} {kinds : List Token.Kind} {tree : Expr}
    (derived : Derives phrase kinds tree) : balance kinds = 0 := by
  induction derived with
  | integer value => rfl
  | parentheses inner ih =>
    simp only [balance, List.count_append, List.count_cons, List.count_nil] at ih ⊢
    simp
    omega
  | single inner ih => exact ih
  | joined operator left right leftIH rightIH =>
    simp only [balance, List.count_append, List.count_cons] at leftIH rightIH ⊢
    simp
    omega

end Calculator.Grammar
