/-
The command line as a function: what a run prints and how it ends, given its arguments, the files
below its working directory and its standard input.
-/
import LoxScan.CommandLine.FileTree
import LoxScan.CommandLine.Prompt

namespace LoxScan

/-- The exit code after too many arguments. -/
def usageExit : UInt32 := 64

/-- The outcome of too many arguments. -/
def usage : Outcome := ⟨usageExit, "Usage: lox [script]\n", ""⟩

/-- The outcome of a run: one argument names a file, and without one the lines of the input are
scanned. -/
def runCommand (arguments : List String) (files : FileTree) (input : List UInt8) : Outcome :=
  match arguments with
  | [] => ⟨0, Prompt.session input⟩
  | [path] => runFile path (files.read path)
  | _ => usage

end LoxScan
