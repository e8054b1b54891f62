import Calculator.Proofs.Parser.RoundTrip
import Calculator.Proofs.Token.Parentheses
import Calculator.Session
import Mathlib.Algebra.GroupWithZero.Nat
import Mathlib.Control.Monad.Basic

/-! What becomes of the operands and operators of a text. Main statement: the trace of a value
holds the integers of the text in their order, each of its operators once, and one pair of
parentheses for each operator, whatever parentheses and blanks the text itself has. -/

namespace Calculator
open Grammar

namespace Expr

def literals : Expr → List Value
  | literal value => [value]
  | binary _ left right => left.literals ++ right.literals

def operators : Expr → List Operator
  | literal _ => []
  | binary operator left right => left.operators ++ operator :: right.operators

end Expr

section Source

variable {phrase : Phrase} {kinds : List Token.Kind} {tree : Expr}

theorem Grammar.Derives.literals_eq (derived : Derives phrase kinds tree) :
    kinds.filterMap Token.Kind.value? = tree.literals := by
  induction derived with
  | integer value => rfl
  | parentheses inner ih =>
    rw [List.cons_append, List.filterMap_cons_none rfl, List.filterMap_append, ih]
    exact List.append_nil _
  | single inner ih => exact ih
  | joined operator left right leftIH rightIH =>
    rw [List.filterMap_append, List.filterMap_cons_none rfl, leftIH, rightIH]
    rfl

theorem Grammar.Derives.operators_eq (derived : Derives phrase kinds tree) :
    kinds.filterMap Token.Kind.operator? = tree.operators := by
  induction derived with
  | integer value => rfl
  | parentheses inner ih =>
    rw [List.cons_append, List.filterMap_cons_none rfl, List.filterMap_append, ih]
    exact List.append_nil _
  | single inner ih => exact ih
  | joined operator left right leftIH rightIH =>
    have taken : Token.Kind.operator? (.operator operator) = some operator := rfl
    rw [List.filterMap_append, List.filterMap_cons_some taken, leftIH, rightIH]
    rfl

theorem Token.Kind.value?_eq_some_iff {kind : Token.Kind} {value : Value} :
    kind.value? = some value ↔ kind = .integer value := by
  cases kind <;> simp [value?]

theorem Token.Kind.operator?_eq_some_iff {kind : Token.Kind} {operator : Operator} :
    kind.operator? = some operator ↔ kind = .operator operator := by
  cases kind <;> simp [operator?]

theorem Token.Kind.count_operator (kinds : List Token.Kind) (operator : Operator) :
    kinds.count (.operator operator) = (kinds.filterMap operator?).count operator := by
  rw [List.count_filterMap, List.count]
  refine List.countP_congr fun kind _ => ?_
  rw [beq_iff_eq, beq_iff_eq, operator?_eq_some_iff]

theorem Cursor.nonneg_of_mem_stream (cursor : Cursor) :
    ∀ token ∈ cursor.stream.tokens, ∀ value, token.kind = .integer value → 0 ≤ value.toInt := by
  apply Cursor.forall_mem_stream
  intro lexeme rest reading position token read success value integer
  cases read with
  | digits more digits ends =>
    rw [Cursor.ofDigits_eq] at success
    split at success
    · rename_i fits
      cases success
      cases integer
      rw [Word.toInt_ofInt_natCast (by decide) fits]
      exact Int.natCast_nonneg _
    · cases success
  | symbol visible other =>
    rw [Cursor.ofSymbol] at success
    split at success
    · rename_i kind found
      cases success
      cases integer
      cases Token.Kind.ofSymbol?_eq_some_iff.1 found
    · cases success

end Source

/-- The characters of a trace that belong to no integer. -/
def marks : List Char := ['+', '-', '*', '/', '(', ')']

theorem isDigit_eq_false_of_mem_marks {mark : Char} (isMark : mark ∈ marks) :
    mark.isDigit = false := by
  simp only [marks, List.mem_cons, List.not_mem_nil, or_false] at isMark
  rcases isMark with rfl | rfl | rfl | rfl | rfl | rfl <;> rfl

theorem Operator.symbol_mem_marks (operator : Operator) : operator.symbol ∈ marks := by
  cases operator <;> decide

namespace Expr

theorem toList_trace_binary (operator : Operator) (left right : Expr) :
    (binary operator left right).trace.toList =
      [operator.symbol] ++ ('(' :: ((left.trace.toList ++ right.trace.toList) ++ [')'])) := by
  simp [trace]

section Unsigned

variable {tree : Expr}

theorem isDigit_of_mem_text {value : Value} (nonneg : 0 ≤ value.toInt) :
    ∀ character ∈ value.text.toList, character.isDigit := by
  intro character member
  rw [Word.toList_text_of_nonneg nonneg] at member
  exact Text.Decimal.isDigit_of_mem_toDigits _ character member

theorem notMem_marks_of_mem_text {value : Value} (nonneg : 0 ≤ value.toInt) :
    ∀ character ∈ value.text.toList, character ∉ marks := by
  intro character member mark
  have digit := isDigit_of_mem_text nonneg character member
  exact Bool.false_ne_true ((isDigit_eq_false_of_mem_marks mark).symm.trans digit)

theorem filter_trace (unsigned : ∀ value ∈ tree.literals, 0 ≤ value.toInt) :
    (tree.trace.toList.filter fun character => character ∉ marks) =
      tree.literals.flatMap fun value => value.text.toList := by
  induction tree with
  | literal value =>
    have nonneg := unsigned value (List.mem_singleton_self _)
    rw [literals, List.flatMap_singleton, trace, List.filter_eq_self]
    intro character member
    exact decide_eq_true (notMem_marks_of_mem_text nonneg character member)
  | binary operator left right leftIH rightIH =>
    obtain ⟨leftUnsigned, rightUnsigned⟩ := List.forall_mem_append.1 unsigned
    have parens : '(' ∈ marks ∧ ')' ∈ marks := by decide
    rw [toList_trace_binary, literals, List.flatMap_append, ← leftIH leftUnsigned,
      ← rightIH rightUnsigned]
    simp [operator.symbol_mem_marks, parens]

theorem count_trace (unsigned : ∀ value ∈ tree.literals, 0 ≤ value.toInt) {mark : Char}
    (isMark : mark ∈ marks) :
    tree.trace.toList.count mark =
      (tree.operators.map fun operator => [operator.symbol, '(', ')'].count mark).sum := by
  induction tree with
  | literal value =>
    have nonneg := unsigned value (List.mem_singleton_self _)
    exact List.count_eq_zero.2 fun member => notMem_marks_of_mem_text nonneg mark member isMark
  | binary operator left right leftIH rightIH =>
    obtain ⟨leftUnsigned, rightUnsigned⟩ := List.forall_mem_append.1 unsigned
    rw [toList_trace_binary]
    simp only [List.count_append, List.count_cons, List.count_nil, leftIH leftUnsigned,
      rightIH rightUnsigned, operators, List.map_append, List.map_cons, List.sum_append,
      List.sum_cons]
    omega

theorem nested_trace (unsigned : ∀ value ∈ tree.literals, 0 ≤ value.toInt) :
    Nested tree.trace.toList := by
  induction tree with
  | literal value =>
    have nonneg := unsigned value (List.mem_singleton_self _)
    exact .of_notMem fun member => notMem_marks_of_mem_text nonneg _ member (by decide)
  | binary operator left right leftIH rightIH =>
    obtain ⟨leftUnsigned, rightUnsigned⟩ := List.forall_mem_append.1 unsigned
    rw [toList_trace_binary]
    refine Nested.append (.of_notMem ?_)
      ((leftIH leftUnsigned).append (rightIH rightUnsigned)).parentheses
    cases operator <;> decide

end Unsigned

theorem sum_count_symbol (operators : List Operator) (operator : Operator) :
    (operators.map fun other => [other.symbol, '(', ')'].count operator.symbol).sum =
      operators.count operator := by
  induction operators with
  | nil => rfl
  | cons other operators ih =>
    have one : [other.symbol, '(', ')'].count operator.symbol =
        if other == operator then 1 else 0 := by
      cases other <;> cases operator <;> rfl
    rw [List.map_cons, List.sum_cons, ih, one, List.count_cons, Nat.add_comm]

theorem sum_count_parenthesis (operators : List Operator) {parenthesis : Char}
    (paren : parenthesis = '(' ∨ parenthesis = ')') :
    (operators.map fun operator => [operator.symbol, '(', ')'].count parenthesis).sum =
      operators.length := by
  induction operators with
  | nil => rfl
  | cons operator operators ih =>
    have one : [operator.symbol, '(', ')'].count parenthesis = 1 := by
      rcases paren with rfl | rfl <;> cases operator <;> rfl
    rw [List.map_cons, List.sum_cons, ih, one, List.length_cons, Nat.add_comm]

end Expr

/-- No literal of a tree that was read is negative, because a sign in front of digits is read as an
operator. -/
theorem Expr.nonneg_of_parse {text : String} {tree : Expr} (parsed : parse text = .ok tree) :
    ∀ value ∈ tree.literals, 0 ≤ value.toInt := by
  obtain ⟨-, derived, -⟩ := sentence_of_parse parsed
  intro value member
  rw [← derived.literals_eq, List.mem_filterMap] at member
  obtain ⟨kind, inKinds, found⟩ := member
  obtain ⟨token, inStream, rfl⟩ := List.mem_map.1 inKinds
  exact Cursor.nonneg_of_mem_stream _ token inStream value
    (Token.Kind.value?_eq_some_iff.1 found)

namespace Session

theorem exists_tree_of_run {session : Session} {text : String} {evaluation : Evaluation}
    (success : (session.run text).1 = .ok evaluation) :
    ∃ tree, parse text = .ok tree ∧ evaluation.trace = tree.trace := by
  cases parsed : parse text with
  | error error =>
    rw [run_eq, parsed] at success
    cases success
  | ok tree =>
    rw [run_of_parse session parsed] at success
    cases result : tree.value with
    | error error =>
      rw [result] at success
      cases success
    | ok value =>
      rw [result] at success
      cases success
      exact ⟨tree, rfl, Expr.emitted_eq_trace result⟩

/-- The trace of a value loses, repeats and adds nothing. Its integers are those of the text in
their order, each operator of the text stands in it once, and for each of them it has one
opening and one closing parenthesis, which are nowhere closed before they are opened. -/
theorem run_conserves {session : Session} {text : String} {evaluation : Evaluation}
    (success : (session.run text).1 = .ok evaluation) :
    let kinds := (Cursor.start text).stream.tokens.map Token.kind
    let trace := evaluation.trace.toList
    (∃ position, (Cursor.start text).stream.ending = .endOfInput position) ∧
    (trace.filter fun character => character ∉ marks) =
      (kinds.filterMap Token.Kind.value?).flatMap (fun value => value.text.toList) ∧
    (∀ operator : Operator, trace.count operator.symbol = kinds.count (.operator operator)) ∧
    trace.count '(' = (kinds.filterMap Token.Kind.operator?).length ∧
    trace.count ')' = (kinds.filterMap Token.Kind.operator?).length ∧
    Nested trace := by
  intro kinds trace
  obtain ⟨tree, parsed, traced⟩ := exists_tree_of_run success
  obtain ⟨ending, derived, -⟩ := sentence_of_parse parsed
  have literals : kinds.filterMap Token.Kind.value? = tree.literals := derived.literals_eq
  have operators : kinds.filterMap Token.Kind.operator? = tree.operators := derived.operators_eq
  have unsigned := Expr.nonneg_of_parse parsed
  have counted (operator : Operator) : kinds.count (.operator operator) =
      tree.operators.count operator := by
    rw [← operators, Token.Kind.count_operator]
  have same : trace = tree.trace.toList := congrArg String.toList traced
  rw [same, literals, operators]
  refine ⟨ending, Expr.filter_trace unsigned, fun operator => ?_, ?_, ?_,
    Expr.nested_trace unsigned⟩
  · rw [Expr.count_trace unsigned operator.symbol_mem_marks, Expr.sum_count_symbol, counted]
  · rw [Expr.count_trace unsigned (by decide), Expr.sum_count_parenthesis _ (.inl rfl)]
  · rw [Expr.count_trace unsigned (by decide), Expr.sum_count_parenthesis _ (.inr rfl)]

/-- Blanks, leading zeros and parentheses that are not needed leave no trace. -/
theorem run_conserves_redundant_text :
    let text := "((10 - 002))-(3*1)"
    let trace := "-(-(102)*(31))"
    (({} : Session).run text).1 = .ok ⟨Word.ofInt 64 5, trace⟩ ∧
      (trace.toList.filter fun character => character ∉ marks) = ['1', '0', '2', '3', '1'] ∧
      trace.toList.count '-' = 2 ∧ trace.toList.count '(' = 3 ∧ Nested trace.toList := by
  intro text trace
  have success : (({} : Session).run text).1 = .ok ⟨Word.ofInt 64 5, trace⟩ := by decide +kernel
  obtain ⟨-, integers, signs, opened, -, nested⟩ := run_conserves success
  exact ⟨success, integers.trans (by decide +kernel), (signs .sub).trans (by decide +kernel),
    opened.trans (by decide +kernel), nested⟩

end Session
end Calculator
