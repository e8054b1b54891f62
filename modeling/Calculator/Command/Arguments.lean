import Calculator.Command.Response

/-! The arguments of the command and what they ask for. Arguments are read from left to
right. The first one that is not understood, or that asks for the version or for help,
decides; what stands behind it is not looked at. -/

namespace Calculator.Command

inductive Request where
  | evaluate (options : Options)
  | version
  | help
deriving DecidableEq, Repr

namespace Options

/-! Every option can be given once. -/

def withExpression? (options : Options) (text : String) : Option Options :=
  if options.expression?.isSome then none else some { options with expression? := some text }

def withFile? (options : Options) (path : String) : Option Options :=
  if options.file?.isSome || path.isEmpty then none
  else some { options with file? := some path }

def withQuiet? (options : Options) : Option Options :=
  if options.quiet then none else some { options with quiet := true }

def withTree? (options : Options) : Option Options :=
  if options.showTree then none else some { options with showTree := true }

/-- An expression and a file exclude each other, which is noticed only when all arguments
have been read. -/
def finish? (options : Options) : Option Request :=
  if options.expression?.isSome && options.file?.isSome then none
  else some (.evaluate options)

end Options

namespace Arguments

inductive Step where
  | proceed (options : Options)
  | expectExpression (options : Options)
  | answer (request : Request)

def long? (options : Options) (name : String) (attached? : Option String) : Option Step :=
  match name, attached? with
  | "expr", none => some (.expectExpression options)
  | "expr", some text => (options.withExpression? text).map .proceed
  | "quiet", none => options.withQuiet?.map .proceed
  | "ast", none => options.withTree?.map .proceed
  | "version", none => some (.answer .version)
  | "help", none => some (.answer .help)
  | _, _ => none

/-- Options of one letter, several of which can be written together. The expression is all
that follows its letter; one equals sign in between does not belong to it. -/
def letters? (options : Options) : List Char → Option Step
  | [] => some (.proceed options)
  | 'q' :: letters => options.withQuiet?.bind fun options => letters? options letters
  | 'e' :: [] => some (.expectExpression options)
  | 'e' :: '=' :: text => (options.withExpression? (String.ofList text)).map .proceed
  | 'e' :: text => (options.withExpression? (String.ofList text)).map .proceed
  | 'V' :: _ => some (.answer .version)
  | 'h' :: _ => some (.answer .help)
  | _ => none

def attached? (text : List Char) : Option String :=
  match text.dropWhile (· ≠ '=') with
  | [] => none
  | _ :: value => some (String.ofList value)

def step? (options : Options) (argument : String) : Option Step :=
  match argument.toList with
  | '-' :: '-' :: text =>
      long? options (String.ofList (text.takeWhile (· ≠ '='))) (attached? text)
  | '-' :: letter :: letters => letters? options (letter :: letters)
  -- A single hyphen names a file.
  | _ => (options.withFile? argument).map .proceed

def looksLikeOption (argument : String) : Bool :=
  match argument.toList with
  | '-' :: _ :: _ => true
  | _ => false

/-- Reads the arguments behind options already read. Two hyphens end the options, so that
only files can follow. -/
def readBehind? : Options → List String → Option Request
  | options, [] => options.finish?
  | options, "--" :: paths => (paths.foldlM Options.withFile? options).bind Options.finish?
  | options, argument :: rest =>
      match step? options argument with
      | none => none
      | some (.answer request) => some request
      | some (.proceed options) => readBehind? options rest
      | some (.expectExpression options) =>
          match rest with
          | [] => none
          | text :: rest =>
              if looksLikeOption text then none
              else (options.withExpression? text).bind fun options => readBehind? options rest

end Arguments

def Request.ofArguments? (arguments : List String) : Option Request :=
  Arguments.readBehind? {} arguments

def Response.version : Response := ⟨0, "rechenbuch 0.1.0\n", ""⟩

def usageText : String :=
  "Evaluates integer arithmetic: + - * / and parentheses\n\n"
    ++ "Usage: rechenbuch [OPTIONS] [FILE]\n\n"
    ++ "Arguments:\n"
    ++ "  [FILE]  Evaluate each non-empty line of this file\n\n"
    ++ "Options:\n"
    ++ "  -e, --expr <EXPR>  Evaluate a single expression and exit\n"
    ++ "  -q, --quiet        Do not print the evaluation trace\n"
    ++ "      --ast          Print the parsed tree before evaluating\n"
    ++ "  -h, --help         Print help\n"
    ++ "  -V, --version      Print version\n"

def Response.help : Response := ⟨0, usageText, ""⟩

def Response.usage : Response := ⟨2, "", usageText⟩

def execute (environment : Environment) (arguments : List String) : Response :=
  match Request.ofArguments? arguments with
  | none => .usage
  | some .version => .version
  | some .help => .help
  | some (.evaluate options) => evaluate environment options

end Calculator.Command
