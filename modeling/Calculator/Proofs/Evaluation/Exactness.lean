import Calculator.Session
import Calculator.Proofs.Word.Exactness

/-! Evaluation in words against arithmetic on unbounded whole numbers. Main statement: a tree has
a value if and only if no divisor in it is zero and every subtree has an exact result that some
word holds; otherwise the first subtree at fault, operands before their operation, says which
failure there is. -/

namespace Calculator

namespace Expr

def exact : Expr → Int
  | literal value => value.toInt
  | binary operator left right => operator.exact left.exact right.exact

def subtrees : Expr → List Expr
  | literal value => [literal value]
  | binary operator left right => left.subtrees ++ right.subtrees ++ [binary operator left right]

def DividesByZero : Expr → Prop
  | literal _ => False
  | binary operator _ right => operator = .div ∧ right.exact = 0

instance : DecidablePred DividesByZero
  | literal _ => inferInstanceAs (Decidable False)
  | binary _ _ _ => inferInstanceAs (Decidable (_ ∧ _))

/-- A subtree with a zero divisor or an exact result that no word holds. -/
def Faulty (tree : Expr) : Prop :=
  tree.DividesByZero ∨ ¬Word.Holds 64 tree.exact

instance : DecidablePred Faulty :=
  fun _ => inferInstanceAs (Decidable (_ ∨ _))

def firstFault (tree : Expr) : Option Expr :=
  tree.subtrees.find? fun node => node.Faulty

def Reports (node : Expr) (error : EvalError 64) : Prop :=
  ∃ operator left right lhs rhs, node = binary operator left right ∧
    Word.toInt lhs = left.exact ∧ Word.toInt rhs = right.exact ∧
    error = if operator = .div ∧ right.exact = 0 then .divisionByZero
      else .overflow operator lhs rhs

theorem not_faulty_literal (value : Value) : ¬(literal value).Faulty := by
  intro faulty
  cases faulty with
  | inl byZero => exact byZero
  | inr outside => exact outside (Word.holds_toInt value)

theorem firstFault_literal (value : Value) : (literal value).firstFault = none := by
  simp only [firstFault, subtrees, List.find?_cons, not_faulty_literal, decide_false,
    List.find?_nil]

theorem firstFault_binary (operator : Operator) (left right : Expr) :
    (binary operator left right).firstFault =
      (left.firstFault.or right.firstFault).or
        (if (binary operator left right).Faulty then some (binary operator left right)
          else none) := by
  simp only [firstFault, subtrees, List.find?_append, List.find?_cons, List.find?_nil]
  by_cases faulty : (binary operator left right).Faulty
  · simp only [faulty, decide_true, if_true]
  · simp only [faulty, decide_false, if_false]

theorem firstFault_eq_none_iff (tree : Expr) :
    tree.firstFault = none ↔
      ∀ node ∈ tree.subtrees, ¬node.DividesByZero ∧ Word.Holds 64 node.exact := by
  simp only [firstFault, List.find?_eq_none, decide_eq_true_eq]
  simp only [Faulty, not_or, Decidable.not_not]

section Operation

variable {operator : Operator} {left right : Expr} {lhs rhs : Value}

theorem apply_of_not_faulty (leftExact : lhs.toInt = left.exact)
    (rightExact : rhs.toInt = right.exact) (sound : ¬(binary operator left right).Faulty) :
    ∃ value, operator.apply lhs rhs = .ok value ∧
      value.toInt = (binary operator left right).exact := by
  have defined : ¬(operator = .div ∧ right.exact = 0) := fun byZero => sound (Or.inl byZero)
  have holds : Word.Holds 64 (operator.exact left.exact right.exact) :=
    Decidable.of_not_not fun outside => sound (Or.inr outside)
  refine ⟨Word.ofInt 64 (operator.exact left.exact right.exact), ?_, ?_⟩
  · rw [Operator.apply_eq, leftExact, rightExact, if_neg defined, if_pos holds]
  · exact Word.toInt_ofInt (by decide) holds

theorem apply_of_faulty (leftExact : lhs.toInt = left.exact)
    (rightExact : rhs.toInt = right.exact) (faulty : (binary operator left right).Faulty) :
    ∃ error, operator.apply lhs rhs = .error error ∧
      (binary operator left right).Reports error := by
  refine ⟨_, ?_, operator, left, right, lhs, rhs, rfl, leftExact, rightExact, rfl⟩
  rw [Operator.apply_eq, leftExact, rightExact]
  by_cases byZero : operator = .div ∧ right.exact = 0
  · rw [if_pos byZero, if_pos byZero]
  · have outside : ¬Word.Holds 64 (operator.exact left.exact right.exact) :=
      faulty.resolve_left byZero
    rw [if_neg byZero, if_neg byZero, if_neg outside]

end Operation

/-- What exact arithmetic foretells of an evaluation. By induction an operation finds its
operands' exact values wherever no fault comes before it. -/
theorem value_of_firstFault (tree : Expr) :
    match tree.firstFault with
    | none => ∃ value, tree.value = .ok value ∧ value.toInt = tree.exact
    | some node => ∃ error, tree.value = .error error ∧ node.Reports error := by
  induction tree with
  | literal value =>
    rw [firstFault_literal]
    exact ⟨value, rfl, rfl⟩
  | binary operator left right leftIH rightIH =>
    rw [firstFault_binary]
    cases leftFault : left.firstFault with
    | some node =>
      rw [leftFault] at leftIH
      obtain ⟨error, failure, reports⟩ := leftIH
      refine ⟨error, ?_, reports⟩
      rw [value, failure]
      rfl
    | none =>
      rw [leftFault] at leftIH
      obtain ⟨lhs, leftValue, leftExact⟩ := leftIH
      cases rightFault : right.firstFault with
      | some node =>
        rw [rightFault] at rightIH
        obtain ⟨error, failure, reports⟩ := rightIH
        refine ⟨error, ?_, reports⟩
        rw [value, leftValue, failure]
        rfl
      | none =>
        rw [rightFault] at rightIH
        obtain ⟨rhs, rightValue, rightExact⟩ := rightIH
        have applied : (binary operator left right).value = operator.apply lhs rhs := by
          rw [value, leftValue, rightValue]
          rfl
        rw [applied]
        -- Both operands are exact here, so that only the operation itself can be at fault.
        by_cases faulty : (binary operator left right).Faulty
        · rw [if_pos faulty]
          exact apply_of_faulty leftExact rightExact faulty
        · rw [if_neg faulty]
          exact apply_of_not_faulty leftExact rightExact faulty

/-- Of two faults the one further left counts, however deep it lies. -/
example : firstFault (binary .add
    (binary .add (literal ⟨1⟩) (binary .div (literal ⟨2⟩) (literal ⟨0⟩)))
    (binary .div (literal ⟨3⟩) (literal ⟨0⟩))) =
      some (binary .div (literal ⟨2⟩) (literal ⟨0⟩)) := by decide

theorem Reports.unique {node : Expr} {first second : EvalError 64} (one : node.Reports first)
    (other : node.Reports second) : first = second := by
  obtain ⟨operator, left, right, lhs, rhs, rfl, leftExact, rightExact, rfl⟩ := one
  obtain ⟨_, _, _, lhs', rhs', same, leftExact', rightExact', rfl⟩ := other
  cases same
  have sameLeft : lhs = lhs' := Word.toInt_injective (leftExact.trans leftExact'.symm)
  have sameRight : rhs = rhs' := Word.toInt_injective (rightExact.trans rightExact'.symm)
  rw [sameLeft, sameRight]

theorem value_eq_ok_iff {tree : Expr} {result : Value} :
    tree.value = .ok result ↔ tree.firstFault = none ∧ result.toInt = tree.exact := by
  have foretold := tree.value_of_firstFault
  cases fault : tree.firstFault with
  | none =>
    rw [fault] at foretold
    obtain ⟨found, success, foundExact⟩ := foretold
    rw [success]
    constructor
    · intro same
      cases same
      exact ⟨rfl, foundExact⟩
    · intro exactly
      rw [Word.toInt_injective (foundExact.trans exactly.2.symm)]
  | some node =>
    rw [fault] at foretold
    obtain ⟨error, failure, _⟩ := foretold
    rw [failure]
    constructor
    · intro impossible
      cases impossible
    · intro impossible
      cases impossible.1

theorem value_eq_error_iff {tree : Expr} {error : EvalError 64} :
    tree.value = .error error ↔ ∃ node, tree.firstFault = some node ∧ node.Reports error := by
  have foretold := tree.value_of_firstFault
  cases fault : tree.firstFault with
  | none =>
    rw [fault] at foretold
    obtain ⟨found, success, _⟩ := foretold
    rw [success]
    constructor
    · intro impossible
      cases impossible
    · intro impossible
      cases impossible.choose_spec.1
  | some node =>
    rw [fault] at foretold
    obtain ⟨found, failure, reports⟩ := foretold
    rw [failure]
    constructor
    · intro same
      cases same
      exact ⟨node, rfl, reports⟩
    · intro blamed
      obtain ⟨other, same, otherReports⟩ := blamed
      cases same
      rw [reports.unique otherReports]

end Expr

/-- An evaluation has a value exactly where exact arithmetic has one within the words, and that
value is exact. It fails exactly where there is a fault, as the first one says. -/
theorem Session.evaluate_exact (session : Session) (tree : Expr) :
    (∀ value, (session.evaluate tree).1 = .ok value ↔
      (∀ node ∈ tree.subtrees, ¬node.DividesByZero ∧ Word.Holds 64 node.exact) ∧
        value.toInt = tree.exact) ∧
    (∀ error, (session.evaluate tree).1 = .error error ↔
      ∃ node, tree.firstFault = some node ∧ node.Reports error) := by
  rw [evaluate_eq, ← Expr.firstFault_eq_none_iff]
  constructor
  · intro value
    exact Expr.value_eq_ok_iff
  · intro error
    exact Expr.value_eq_error_iff

end Calculator
