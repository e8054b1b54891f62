import Calculator.Expr

/-! Evaluation of a tree of any depth with a list of tasks and a stack of values. The trace
grows with every task. Main statement: a visit of a tree has the effect that the recursive
evaluation of the tree describes, so that no task ever lacks its operands. -/

namespace Calculator.Machine

/-- Both operands of an operation are visited before it is applied. -/
inductive Task where
  | visit (tree : Expr)
  | apply (operator : Operator)

namespace Task

/-- A visit counts double, for the operation that it leaves behind. -/
def weight : Task → Nat
  | visit tree => 2 * tree.size
  | apply _ => 1

end Task

/-- How a list of tasks ends. It is stuck if an operation finds fewer than two values, or
if no value is left at the end. -/
inductive Verdict where
  | value (value : Value)
  | failed (error : EvalError 64)
  | stuck
deriving DecidableEq, Repr

def perform : List Task → List Value → String → Verdict × String
  | [], value :: _, trace => (.value value, trace)
  | [], [], trace => (.stuck, trace)
  | .visit (.literal value) :: tasks, values, trace =>
      perform tasks (value :: values) (trace ++ value.text)
  | .visit (.binary operator left right) :: tasks, values, trace =>
      perform (.visit left :: .visit right :: .apply operator :: tasks) values
        ((trace.push operator.symbol).push '(')
  | .apply operator :: tasks, right :: left :: values, trace =>
      match operator.apply left right with
      | .ok value => perform tasks (value :: values) (trace.push ')')
      | .error error => (.failed error, trace.push ')')
  | .apply _ :: _, _, trace => (.stuck, trace.push ')')
termination_by tasks => tasks.foldr (fun task total => task.weight + total) 0
decreasing_by
  all_goals
    simp only [List.foldr_cons, Task.weight, Expr.size]
    omega

theorem push_open (trace : String) (symbol : Char) :
    (trace.push symbol).push '(' = trace ++ (String.singleton symbol ++ "(") := by
  apply String.toList_injective
  simp

theorem push_close (trace : String) : trace.push ')' = trace ++ ")" := by
  apply String.toList_injective
  simp

/-- A visit puts the value of the tree on the stack, or ends everything with the failure of
the tree. In both cases the trace grows by what the tree emits. -/
theorem perform_visit (tree : Expr) (tasks : List Task) (values : List Value)
    (trace : String) :
    perform (.visit tree :: tasks) values trace =
      match tree.value with
      | .ok value => perform tasks (value :: values) (trace ++ tree.emitted)
      | .error error => (.failed error, trace ++ tree.emitted) := by
  induction tree generalizing tasks values trace with
  | literal value => rw [perform]; rfl
  | binary operator left right leftIH rightIH =>
    rw [perform, leftIH, push_open]
    simp only [Expr.value, Expr.emitted, bind, Except.bind]
    cases left.value with
    | error failure => simp only [String.append_assoc]
    | ok first =>
      simp only [rightIH]
      cases right.value with
      | error failure => simp only [String.append_assoc]
      | ok second =>
        simp only [perform, push_close]
        cases operator.apply first second <;> simp only [String.append_assoc]

theorem perform_tree (tree : Expr) (trace : String) :
    perform [.visit tree] [] trace =
      match tree.value with
      | .ok value => (.value value, trace ++ tree.emitted)
      | .error error => (.failed error, trace ++ tree.emitted) := by
  rw [perform_visit]
  cases tree.value <;> simp [perform]

theorem perform_tree_not_stuck (tree : Expr) (trace : String) :
    (perform [.visit tree] [] trace).1 ≠ .stuck := by
  rw [perform_tree]
  cases tree.value <;> simp

end Calculator.Machine
