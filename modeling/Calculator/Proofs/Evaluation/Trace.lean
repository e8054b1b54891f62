import Calculator.Session

/-! The trace that an evaluation leaves behind. Main statement: the work list of tasks has the
effect of a recursion that writes the trace as it goes and stops at the first failure, and a
failed evaluation has written the whole trace up to the closing parenthesis of the operation
that fails. -/

namespace Calculator

namespace Expr

def recite : Expr → String → Except (EvalError 64) Value × String
  | literal value, written => (.ok value, written ++ value.text)
  | binary operator left right, written =>
      match left.recite ((written.push operator.symbol).push '(') with
      | (.error error, written) => (.error error, written)
      | (.ok leftValue, written) =>
          match right.recite written with
          | (.error error, written) => (.error error, written)
          | (.ok rightValue, written) =>
              (operator.apply leftValue rightValue, written.push ')')

/-- An operation around a place in a tree, whose other operand is known. -/
inductive Frame where
  | left (operator : Operator) (right : Expr)
  | right (operator : Operator) (left : Expr)

/-- Puts a tree into its place. The first frame is the root of the whole. -/
def plug : List Frame → Expr → Expr
  | [], tree => tree
  | .left operator right :: frames, tree => binary operator (plug frames tree) right
  | .right operator left :: frames, tree => binary operator left (plug frames tree)

def opening : List Frame → String
  | [] => ""
  | .left operator _ :: frames => String.singleton operator.symbol ++ "(" ++ opening frames
  | .right operator left :: frames =>
      String.singleton operator.symbol ++ "(" ++ left.trace ++ opening frames

def closing : List Frame → String
  | [] => ""
  | .left _ right :: frames => closing frames ++ right.trace ++ ")"
  | .right _ _ :: frames => closing frames ++ ")"

/-- An evaluation from left to right comes to the place. -/
def Reached (frames : List Frame) : Prop :=
  ∀ operator left, .right operator left ∈ frames → ∃ value, left.value = .ok value

def Fails (tree : Expr) (error : EvalError 64) : Prop :=
  ∃ operator left right first second, tree = binary operator left right ∧
    left.value = .ok first ∧ right.value = .ok second ∧
    operator.apply first second = .error error

theorem reached_nil : Reached [] := by
  intro operator left member
  cases member

theorem Reached.left {frames : List Frame} (reached : Reached frames) (operator : Operator)
    (right : Expr) : Reached (.left operator right :: frames) := by
  intro other left member
  cases member with
  | tail _ member => exact reached other left member

theorem Reached.right {frames : List Frame} (reached : Reached frames) (operator : Operator)
    {left : Expr} {value : Value} (done : left.value = .ok value) :
    Reached (.right operator left :: frames) := by
  intro other tree member
  cases member with
  | head => exact ⟨value, done⟩
  | tail _ member => exact reached other tree member

theorem trace_plug (frames : List Frame) (tree : Expr) :
    (plug frames tree).trace = opening frames ++ tree.trace ++ closing frames := by
  induction frames with
  | nil => simp only [plug, opening, closing, String.empty_append, String.append_empty]
  | cons frame frames ih =>
    cases frame <;> simp only [plug, opening, closing, trace, ih, String.append_assoc]

theorem recite_eq (tree : Expr) (written : String) :
    tree.recite written = (tree.value, written ++ tree.emitted) := by
  induction tree generalizing written with
  | literal value => rfl
  | binary operator left right leftIH rightIH =>
    rw [recite, leftIH, Machine.push_open]
    simp only [value, emitted, bind, Except.bind]
    cases left.value with
    | error failure => simp only [String.append_assoc]
    | ok first =>
      simp only [rightIH]
      cases right.value with
      | error failure => simp only [String.append_assoc]
      | ok second =>
        simp only [Machine.push_close, String.append_assoc]

example : recite (binary .mul (binary .add (literal ⟨1⟩) (literal ⟨2⟩))
    (binary .div (literal ⟨4⟩) (literal ⟨0⟩))) "0" =
      (.error .divisionByZero, "0*(+(12)/(40)") := rfl

/-- A tree without a value has emitted its trace up to the end of the operation that fails. -/
theorem exists_fails {tree : Expr} {error : EvalError 64} (failure : tree.value = .error error) :
    ∃ frames node, tree = plug frames node ∧ Reached frames ∧ node.Fails error ∧
      tree.emitted = opening frames ++ node.trace := by
  induction tree with
  | literal value => cases failure
  | binary operator left right leftIH rightIH =>
    rw [value] at failure
    rw [emitted]
    cases leftValue : left.value with
    | error first =>
      rw [leftValue] at failure
      have same : left.value = .error error := leftValue.trans failure
      obtain ⟨frames, node, rfl, reached, fails, written⟩ := leftIH same
      refine ⟨.left operator right :: frames, node, rfl, reached.left operator right, fails, ?_⟩
      simp only [written, opening, String.append_assoc]
    | ok first =>
      have leftTrace : left.emitted = left.trace := emitted_eq_trace leftValue
      rw [leftValue] at failure
      cases rightValue : right.value with
      | error second =>
        simp only [rightValue, bind, Except.bind] at failure
        have same : right.value = .error error := rightValue.trans failure
        obtain ⟨frames, node, rfl, reached, fails, written⟩ := rightIH same
        refine ⟨.right operator left :: frames, node, rfl, reached.right operator leftValue,
          fails, ?_⟩
        simp only [leftTrace, written, opening, String.append_assoc]
      | ok second =>
        have rightTrace : right.emitted = right.trace := emitted_eq_trace rightValue
        simp only [rightValue, bind, Except.bind] at failure
        refine ⟨[], binary operator left right, rfl, reached_nil,
          ⟨operator, left, right, first, second, rfl, leftValue, rightValue, failure⟩, ?_⟩
        simp only [leftTrace, rightTrace, opening, trace, String.empty_append]

end Expr

/-- An evaluation never lacks an operand and has the effect of the recursion. It writes the whole
trace of a tree that has a value, and that of any other tree up to the end of the operation
that fails. -/
theorem Session.evaluate_eq_recite (session : Session) (tree : Expr) :
    (Machine.perform [.visit tree] [] session.trace).1 ≠ .stuck ∧
    session.evaluate tree =
      ((tree.recite session.trace).1, ⟨(tree.recite session.trace).2⟩) ∧
    (∀ value, (session.evaluate tree).1 = .ok value →
      (session.evaluate tree).2.trace = session.trace ++ tree.trace) ∧
    (∀ error, (session.evaluate tree).1 = .error error →
      ∃ frames node, tree = Expr.plug frames node ∧ Expr.Reached frames ∧ node.Fails error ∧
        tree.trace = Expr.opening frames ++ node.trace ++ Expr.closing frames ∧
        (session.evaluate tree).2.trace =
          session.trace ++ (Expr.opening frames ++ node.trace)) := by
  rw [evaluate_eq, Expr.recite_eq]
  refine ⟨Machine.perform_tree_not_stuck tree session.trace, rfl, ?success, ?failure⟩
  case success =>
    intro value success
    exact congrArg (session.trace ++ ·) (Expr.emitted_eq_trace success)
  case failure =>
    intro error failure
    obtain ⟨frames, node, rfl, reached, fails, written⟩ := Expr.exists_fails failure
    exact ⟨frames, node, rfl, reached, fails, Expr.trace_plug frames node,
      congrArg (session.trace ++ ·) written⟩

end Calculator
