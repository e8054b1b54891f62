import Calculator.Machine
import Calculator.Parser

/-! A session evaluates one formula after the other and collects the trace. Main statement:
evaluation yields the value of the tree and adds what the tree emits to the trace. -/

namespace Calculator

structure Evaluation where
  value : Value
  trace : String
deriving DecidableEq, Repr

inductive RunError where
  | lexical (error : LexicalError)
  | parse (error : ParseError)
  | eval (error : EvalError 64)
deriving DecidableEq, Repr

namespace RunError

def message : RunError → String
  | lexical error => error.message
  | parse error => error.message
  | eval error => error.message

/-- A lexical error that stops the parser is reported as what it is, and not as one of parsing. -/
def ofParse : ParseError → RunError
  | .lexical error => lexical error
  | error => parse error

end RunError

structure Session where
  trace : String := ""
deriving DecidableEq, Repr

namespace Session

/-- Evaluates a tree and adds to the trace, also if the evaluation fails. -/
def evaluate (session : Session) (tree : Expr) :
    Except (EvalError 64) Value × Session :=
  match outcome : Machine.perform [.visit tree] [] session.trace with
  | (.value value, trace) => (.ok value, ⟨trace⟩)
  | (.failed error, trace) => (.error error, ⟨trace⟩)
  | (.stuck, _) =>
      absurd (congrArg Prod.fst outcome) (Machine.perform_tree_not_stuck tree session.trace)

def takeTrace (session : Session) : String × Session := (session.trace, {})

/-- Evaluates a tree with a trace of its own. An older trace is dropped, no trace is left
behind, and that of a failed evaluation is lost. -/
def runExpr (session : Session) (tree : Expr) :
    Except (EvalError 64) Evaluation × Session :=
  let (_, fresh) := session.takeTrace
  let (result, evaluated) := fresh.evaluate tree
  let (trace, after) := evaluated.takeTrace
  (result.map fun value => ⟨value, trace⟩, after)

/-- Evaluates a text. The trace is left alone if the text has no tree. -/
def run (session : Session) (text : String) : Except RunError Evaluation × Session :=
  match parse text with
  | .error error => (.error (.ofParse error), session)
  | .ok tree =>
      let (result, after) := session.runExpr tree
      (result.mapError .eval, after)

theorem evaluate_eq (session : Session) (tree : Expr) :
    session.evaluate tree = (tree.value, ⟨session.trace ++ tree.emitted⟩) := by
  have performed := Machine.perform_tree tree session.trace
  unfold evaluate
  split
  · rename_i value trace outcome
    rw [performed] at outcome
    cases value' : tree.value <;> simp_all
  · rename_i failure trace outcome
    rw [performed] at outcome
    cases value' : tree.value <;> simp_all
  · rename_i trace outcome
    exact absurd (congrArg Prod.fst outcome) (Machine.perform_tree_not_stuck _ _)

theorem runExpr_eq (session : Session) (tree : Expr) :
    session.runExpr tree = (tree.value.map fun value => ⟨value, tree.emitted⟩, {}) := by
  simp [runExpr, evaluate_eq, takeTrace]

theorem run_eq (session : Session) (text : String) :
    session.run text =
      match parse text with
      | .error error => (.error (.ofParse error), session)
      | .ok tree => ((tree.value.map fun value => ⟨value, tree.emitted⟩).mapError .eval, {}) := by
  rw [run]
  cases parse text with
  | error error => rfl
  | ok tree => simp only [runExpr_eq]

theorem run_of_parse (session : Session) {text : String} {tree : Expr}
    (parsed : parse text = .ok tree) :
    (session.run text).1 =
      (tree.value.map fun value => ⟨value, tree.emitted⟩).mapError .eval := by
  rw [run_eq, parsed]

end Session
end Calculator
