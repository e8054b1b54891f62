import Calculator.Command.Report

/-! The answer of the command to its options, as a function of what the files and the standard
input hold. -/

namespace Calculator.Command

structure SystemError where
  description : String
  code : Nat
deriving DecidableEq, Repr

def SystemError.message (error : SystemError) : String :=
  error.description ++ " (os error " ++ Text.Decimal.text error.code ++ ")"

inductive FileAnswer where
  | content (bytes : Bytes)
  | refused (error : SystemError)
  | unreadable (error : SystemError)
deriving DecidableEq, Repr

structure Environment where
  file : String → FileAnswer
  standardInput : Bytes

structure Options where
  expression? : Option String := none
  file? : Option String := none
  quiet : Bool := false
  showTree : Bool := false
deriving DecidableEq, Repr

structure Response where
  exitCode : Nat
  output : String
  errors : String
deriving DecidableEq, Repr

def errorLine (message : String) : String := errorText message ++ "\n"

namespace Response

def ofProgress (progress : Progress) : Response :=
  ⟨if progress.success then 0 else 1, progress.printed, ""⟩

def ofBytes (display : Display) (bytes : Bytes) : Response :=
  match Progress.follow display (lines bytes) {} with
  | (progress, true) => ofProgress progress
  | (progress, false) =>
      ⟨1, progress.printed, errorLine "stream did not contain valid UTF-8"⟩

def ofFile (display : Display) (path : String) : FileAnswer → Response
  | .content bytes => ofBytes display bytes
  | .refused error => ⟨1, "", errorLine (path ++ ": " ++ error.message)⟩
  | .unreadable error => ⟨1, "", errorLine error.message⟩

end Response

def Options.display (options : Options) : Display := ⟨options.quiet, options.showTree⟩

/-- Evaluates the expression, or else the lines of the file, or else those of the standard
input. -/
def evaluate (environment : Environment) (options : Options) : Response :=
  match options.expression?, options.file? with
  | some text, _ => .ofProgress (Progress.answer options.display {} text)
  | none, some path => .ofFile options.display path (environment.file path)
  | none, none => .ofBytes options.display environment.standardInput

end Calculator.Command
