/-
The program: `lox [script]` scans a file, and without an argument the lines of standard input.

Only reading and printing happen here; what is printed is `runFile` and `Prompt.answer?`.
-/
import LoxScan.CommandLine.Run

namespace LoxScan

/-- Prints a text on each of the two streams. -/
def Printed.put (p : Printed) : IO Unit := do
  let out ← IO.getStdout
  out.putStr p.out
  out.flush
  (← IO.getStderr).putStr p.err

/-- The reason that the operating system gives for an error. -/
def ReadFailure.ofError : IO.Error → ReadFailure
  | .alreadyExists _ code words | .otherError code words | .resourceBusy code words
  | .resourceVanished code words | .unsupportedOperation code words | .hardwareFault code words
  | .unsatisfiedConstraints code words | .illegalOperation code words | .protocolError code words
  | .timeExpired code words | .interrupted _ code words | .noFileOrDirectory _ code words
  | .invalidArgument _ code words | .permissionDenied _ code words
  | .resourceExhausted _ code words | .inappropriateType _ code words
  | .noSuchThing _ code words => .system words code
  | .unexpectedEof => .system "Unexpected end of file" 0
  | .userError words => .system words 0

/-- The bytes of a file. -/
def readBytes (path : String) : IO (Except ReadFailure (List UInt8)) := do
  try
    let file ← IO.FS.Handle.mk path .read
    return .ok (← file.readBinToEnd).toList
  catch e => return .error (.ofError e)

/-- The next raw line of the input, if there is one. -/
partial def readLine (input : IO.FS.Stream) (before : List UInt8) : IO (Option (List UInt8)) := do
  match (← input.read 1).toList with
  | [] => return if before = [] then none else some before.reverse
  | byte :: _ =>
    if byte = Prompt.newlineByte then
      return some (dropFinal Prompt.returnByte before.reverse)
    else
      readLine input (byte :: before)

/-- Asks for lines until the input ends or a line is not text. -/
partial def converse (input : IO.FS.Stream) : IO Unit := do
  Prompt.ask.put
  match ← readLine input [] with
  | none => Prompt.farewell.put
  | some line =>
    match Prompt.answer? line with
    | none => Prompt.complaint.put
    | some printed =>
      printed.put
      converse input

/-- Prints an outcome and gives its exit code. -/
def Outcome.put (o : Outcome) : IO UInt32 := do
  o.printed.put
  return o.exitCode

end LoxScan

open LoxScan in
/-- Runs the program. -/
def main (arguments : List String) : IO UInt32 := do
  match arguments with
  | [] =>
    converse (← IO.getStdin)
    return 0
  | [path] => (runFile path (← readBytes path)).put
  | _ => usage.put
