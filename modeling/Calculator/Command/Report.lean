import Calculator.Command.Lines
import Calculator.Expr.Infix
import Calculator.Session
import Calculator.Text.Blank

/-! What the command prints for a line, and for one line after the other. All lines are
evaluated in one session. A line that fails does not stop the lines behind it; a line that
cannot be read does. -/

namespace Calculator.Command

structure Display where
  quiet : Bool := false
  showTree : Bool := false
deriving DecidableEq, Repr

def errorText (message : String) : String := "error: " ++ message

structure Report where
  printed : List String
  success : Bool
deriving DecidableEq, Repr

def Report.text (report : Report) : String :=
  report.printed.foldl (fun text line => text ++ line ++ "\n") ""

/-- Evaluates one line. The tree is printed before the evaluation, so that it stands in front
of a failure as well as of a value; the trace of a failure is not printed. -/
def report (display : Display) (session : Session) (line : String) : Report × Session :=
  match parse line with
  | .error error => (⟨[errorText (RunError.ofParse error).message], false⟩, session)
  | .ok tree =>
      let shown := if display.showTree then [tree.render] else []
      match session.runExpr tree with
      | (.error error, after) => (⟨shown ++ [errorText error.message], false⟩, after)
      | (.ok evaluation, after) =>
          let trace := if display.quiet then [] else [evaluation.trace]
          (⟨shown ++ trace ++ [evaluation.value.text], true⟩, after)

structure Progress where
  session : Session := {}
  printed : String := ""
  success : Bool := true
deriving DecidableEq, Repr

namespace Progress

def answer (display : Display) (progress : Progress) (line : String) : Progress :=
  let (report, session) := report display progress.session line
  ⟨session, progress.printed ++ report.text, progress.success && report.success⟩

def read (display : Display) (progress : Progress) (line : String) : Progress :=
  if Text.isBlankText line then progress else progress.answer display line

/-- Reads the lines up to the first one that is not valid text, and tells whether there is
none such. -/
def follow (display : Display) : List Bytes → Progress → Progress × Bool
  | [], progress => (progress, true)
  | line :: rest, progress =>
      match String.fromUTF8? line.toByteArray with
      | none => (progress, false)
      | some text => follow display rest (progress.read display text)

end Progress
end Calculator.Command
