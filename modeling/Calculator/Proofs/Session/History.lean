import Calculator.Session
import Mathlib.Data.List.DropRight

/-! What a session owes to its past. Main statement: whatever has been asked of a session before,
it evaluates as a new one does, and its trace is what evaluations have emitted since the last
request that cleared it. -/

namespace Calculator.Session

inductive Request where
  | run (text : String)
  | runExpr (tree : Expr)
  | evaluate (tree : Expr)
  | takeTrace

inductive Answer where
  | ran (result : Except RunError Evaluation)
  | ranExpr (result : Except (EvalError 64) Evaluation)
  | evaluated (result : Except (EvalError 64) Value)
  | taken (trace : String)

def respond (session : Session) : Request → Answer × Session
  | .run text => (session.run text).map .ran id
  | .runExpr tree => (session.runExpr tree).map .ranExpr id
  | .evaluate tree => (session.evaluate tree).map .evaluated id
  | .takeTrace => session.takeTrace.map .taken id

/-- A new session behind some requests, of which the latest comes last. -/
def behind (history : List Request) : Session :=
  history.foldl (fun session request => (session.respond request).2) {}

namespace Request

def clears : Request → Bool
  | run text => (parse text).isOk
  | runExpr _ | takeTrace => true
  | evaluate _ => false

def emits : Request → String
  | evaluate tree => tree.emitted
  | run _ | runExpr _ | takeTrace => ""

end Request

def accrued (history : List Request) : String :=
  String.join ((history.rtakeWhile fun request => !request.clears).map Request.emits)

theorem trace_respond (session : Session) (request : Request) :
    (session.respond request).2.trace =
      if request.clears then "" else session.trace ++ request.emits := by
  cases request with
  | run text =>
    rw [respond, run_eq, Request.clears]
    cases parse text with
    | error error => exact String.append_empty.symm
    | ok tree => rfl
  | runExpr tree =>
    rw [respond, runExpr_eq]
    rfl
  | evaluate tree =>
    rw [respond, evaluate_eq]
    rfl
  | takeTrace => rfl

theorem accrued_concat (history : List Request) (request : Request) :
    accrued (history ++ [request]) =
      if request.clears then "" else accrued history ++ request.emits := by
  rw [accrued, List.rtakeWhile_concat]
  cases request.clears with
  | true => rfl
  | false =>
    simp only [Bool.not_false, if_true, Bool.false_eq_true, if_false, List.map_append,
      List.map_cons, List.map_nil, String.join_append, accrued]
    simp

theorem trace_behind (history : List Request) : (behind history).trace = accrued history := by
  induction history using List.reverseRecOn with
  | nil => rfl
  | append_singleton history request ih =>
    have last : behind (history ++ [request]) = ((behind history).respond request).2 := by
      rw [behind, List.foldl_append]
      rfl
    rw [last, trace_respond, accrued_concat, ih]

theorem respond_eq_new (session : Session) {request : Request} (other : request ≠ .takeTrace) :
    (session.respond request).1 = (({} : Session).respond request).1 := by
  cases request with
  | run text =>
    simp only [respond, run_eq]
    cases parse text <;> rfl
  | runExpr tree => simp only [respond, runExpr_eq]
  | evaluate tree => simp only [respond, evaluate_eq, Prod.map]
  | takeTrace => exact absurd rfl other

/-- Behind every history a session answers as a new one does, keeps the trace that has accrued,
hands out exactly this trace, and keeps it where a text has no tree. -/
theorem respond_behind (history : List Request) :
    (∀ request, request ≠ .takeTrace →
      ((behind history).respond request).1 = (({} : Session).respond request).1) ∧
    (behind history).trace = accrued history ∧
    ((behind history).respond .takeTrace).1 = .taken (accrued history) ∧
    ∀ text error, parse text = .error error →
      ((behind history).respond (.run text)).2 = behind history := by
  refine ⟨fun request => respond_eq_new _, trace_behind history, ?taken, ?kept⟩
  case taken =>
    rw [← trace_behind]
    rfl
  case kept =>
    intro text error failure
    rw [respond, run_eq, failure]
    rfl

end Calculator.Session
