import Calculator.Word

/-! Expressions: the trees that formulas stand for, and what is said about them by recursion
on the tree. A tree may be as deep as a formula is long, so what runs on trees of any size
is computed with work lists elsewhere and shown to agree with the definitions given here. -/

namespace Calculator

inductive Expr where
  | literal (value : Value)
  | binary (operator : Operator) (left right : Expr)
deriving DecidableEq, Repr

namespace Expr

def size : Expr → Nat
  | literal _ => 1
  | binary _ left right => left.size + right.size + 1

def depth : Expr → Nat
  | literal _ => 1
  | binary _ left right => max left.depth right.depth + 1

def text : Expr → String
  | literal value => value.text
  | binary operator left right =>
      "(" ++ left.text ++ " " ++ String.singleton operator.symbol ++ " " ++ right.text ++ ")"

/-- The value: that of the left operand, then that of the right one, then the operation. The
first failure in this order is the failure of the whole. -/
def value : Expr → Except (EvalError 64) Value
  | literal value => .ok value
  | binary operator left right => do
      let leftValue ← left.value
      let rightValue ← right.value
      operator.apply leftValue rightValue

def trace : Expr → String
  | literal value => value.text
  | binary operator left right =>
      String.singleton operator.symbol ++ "(" ++ left.trace ++ right.trace ++ ")"

/-- The record of an evaluation as far as it comes. An operation that fails is recorded to
its end; behind the first failure nothing is recorded. -/
def emitted : Expr → String
  | literal value => value.text
  | binary operator left right =>
      let opened := String.singleton operator.symbol ++ "(" ++ left.emitted
      match left.value with
      | .error _ => opened
      | .ok _ =>
          match right.value with
          | .error _ => opened ++ right.emitted
          | .ok _ => opened ++ right.emitted ++ ")"

theorem size_pos (tree : Expr) : 0 < tree.size := by
  cases tree <;> simp [size]

theorem emitted_eq_trace {tree : Expr} {result : Value} (success : tree.value = .ok result) :
    tree.emitted = tree.trace := by
  induction tree generalizing result with
  | literal value => rfl
  | binary operator left right leftIH rightIH =>
    cases leftValue : left.value with
    | error failure => simp [value, leftValue, bind, Except.bind] at success
    | ok first =>
      cases rightValue : right.value with
      | error failure => simp [value, leftValue, rightValue, bind, Except.bind] at success
      | ok second =>
        simp [emitted, trace, leftValue, rightValue, leftIH leftValue, rightIH rightValue]

end Expr
end Calculator
