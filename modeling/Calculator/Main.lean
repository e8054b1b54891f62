import Calculator.Command.Arguments

/-! The command as a program: it fetches the bytes that its arguments ask for and prints the
answer. -/

namespace Calculator.Command

def systemError : IO.Error → SystemError
  | .noFileOrDirectory _ code _ => ⟨"No such file or directory", code.toNat⟩
  | .permissionDenied _ code _ => ⟨"Permission denied", code.toNat⟩
  | .inappropriateType _ code _ => ⟨"Is a directory", code.toNat⟩
  | error => ⟨error.toString, 0⟩

def openFile (path : String) : IO FileAnswer := do
  match ← (IO.FS.Handle.mk path .read).toBaseIO with
  | .error error => return .refused (systemError error)
  | .ok handle =>
      match ← handle.readBinToEnd.toBaseIO with
      | .error error => return .unreadable (systemError error)
      | .ok bytes => return .content bytes.toList

def gather (arguments : List String) : IO Environment := do
  match Request.ofArguments? arguments with
  | some (.evaluate ⟨none, some path, _, _⟩) =>
      let answer ← openFile path
      return ⟨fun _ => answer, []⟩
  | some (.evaluate ⟨none, none, _, _⟩) =>
      let bytes ← (← IO.getStdin).readBinToEnd
      return ⟨fun _ => .content [], bytes.toList⟩
  | _ => return ⟨fun _ => .content [], []⟩

end Calculator.Command

open Calculator.Command in
def main (arguments : List String) : IO UInt32 := do
  let environment ← gather arguments
  let response := execute environment arguments
  IO.print response.output
  IO.eprint response.errors
  return response.exitCode.toUInt32
