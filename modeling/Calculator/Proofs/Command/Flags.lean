import Calculator.Proofs.Command.Content

/-! What the flags of the command change. Main statement: a line is answered with what a run of
the line comes to, the flags add the tree or leave out the trace, and nothing else depends on
them. -/

namespace Calculator.Command

def Display.treeLine (display : Display) (line : String) : List String :=
  match parse line with
  | .ok tree => if display.showTree then [tree.render] else []
  | .error _ => []

def Display.shown (display : Display) (line : String) : Except RunError Evaluation → List String
  | .ok evaluation =>
      display.treeLine line ++ (if display.quiet then [] else [evaluation.trace]) ++
        [evaluation.value.text]
  | .error error => display.treeLine line ++ [errorText error.message]

/-- The line that is printed whatever the flags are. -/
def verdict : Except RunError Evaluation → String
  | .ok evaluation => evaluation.value.text
  | .error error => errorText error.message

theorem Display.getLast?_shown (display : Display) (line : String)
    (result : Except RunError Evaluation) :
    (display.shown line result).getLast? = some (verdict result) := by
  cases result with
  | ok evaluation => exact List.getLast?_concat
  | error error => exact List.getLast?_concat

theorem report_eq_run (display : Display) (session : Session) (line : String) :
    report display session line =
      (⟨display.shown line (session.run line).1, (session.run line).1.isOk⟩,
        (session.run line).2) := by
  unfold report
  rw [Session.run_eq]
  cases parsed : parse line with
  | error error =>
    have shown (failure : RunError) :
        display.shown line (.error failure) = [errorText failure.message] := by
      simp only [Display.shown, Display.treeLine, parsed, List.nil_append]
    simp only [shown]
    rfl
  | ok tree =>
    have treeLine : display.treeLine line = if display.showTree then [tree.render] else [] := by
      simp only [Display.treeLine, parsed]
    simp only [Session.runExpr_eq]
    cases tree.value with
    | error error =>
      simp only [Except.map, Except.mapError, Display.shown, treeLine]
      rfl
    | ok value =>
      simp only [Except.map, Except.mapError, Display.shown, treeLine]
      rfl

theorem Report.text_eq_join (report : Report) :
    report.text = String.join (report.printed.map fun line => line ++ "\n") := by
  have behind (lines : List String) (text : String) :
      lines.foldl (fun text line => text ++ line ++ "\n") text =
        text ++ String.join (lines.map fun line => line ++ "\n") := by
    induction lines generalizing text with
    | nil => simp
    | cons line lines ih =>
      rw [List.foldl_cons, ih, List.map_cons, String.join_cons]
      simp only [String.append_assoc]
  rw [text, behind, String.empty_append]

/-- The command answers every line with what a run of the line comes to, and keeps the session
as the run does. Whether there is a value, the line of the value or the error, and the session
are the same under all flags. So they are for all lines of some content, as are the exit code
and the errors of the input. -/
theorem report_agrees :
    (∀ display session line, report display session line =
      (⟨display.shown line (session.run line).1, (session.run line).1.isOk⟩,
        (session.run line).2)) ∧
    (∀ display other session line,
      (report display session line).1.success = (report other session line).1.success ∧
      (report display session line).1.printed.getLast? =
        (report other session line).1.printed.getLast? ∧
      (report display session line).2 = (report other session line).2) ∧
    ∀ display other bytes,
      (Response.ofBytes display bytes).output =
        String.join ((spoken bytes).map fun text =>
          String.join ((display.shown text (({} : Session).run text).1).map fun line =>
            line ++ "\n")) ∧
      (Response.ofBytes display bytes).exitCode = (Response.ofBytes other bytes).exitCode ∧
      (Response.ofBytes display bytes).errors = (Response.ofBytes other bytes).errors := by
  refine ⟨report_eq_run, ?line, ?content⟩
  case line =>
    intro display other session line
    rw [report_eq_run display, report_eq_run other]
    refine ⟨rfl, ?_, rfl⟩
    rw [Display.getLast?_shown, Display.getLast?_shown]
  case content =>
    intro display other bytes
    simp only [Response.ofBytes_eq, answered, report_eq_run, Report.text_eq_join, and_self]

/-- The tree is shown although its evaluation fails; the trace is not. -/
example : (report ⟨false, true⟩ {} "1/(2-2)").1.printed =
    ["(1 / (2 - 2))", "error: Division by zero."] := by decide +kernel

end Calculator.Command
