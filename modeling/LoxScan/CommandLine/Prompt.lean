/-
The prompt: each line of the input is scanned by itself.

* `rawLines` — the lines of the input;
* `answer?` — what is printed for a line, if it is text;
* `session` — what is printed for a whole input, with the prompts.
-/
import LoxScan.CommandLine.File
import LoxScan.Text.Ending

namespace LoxScan.Prompt

/-- The byte of a newline. -/
def newlineByte : UInt8 := 10

/-- The byte of a carriage return. -/
def returnByte : UInt8 := 13

/-- The lines of an input.  A line loses its newline and one carriage return right before it; what
stands behind the last newline is a line if it is not empty. -/
def rawLines (input : List UInt8) : List (List UInt8) :=
  let pieces := input.splitOn newlineByte
  let last := pieces.getLast?.filter (· ≠ [])
  pieces.dropLast.map (dropFinal returnByte) ++ last.toList

/-- What stands in place of the name of a file. -/
def fileName : String := "<prompt>"

/-- What is printed for a line; a line that is not text has no answer. -/
def answer? (line : List UInt8) : Option Printed :=
  (decode? line).map fun source => .ofScan (scan source) source fileName

/-- What asks for a line. -/
def ask : Printed := ⟨"> ", ""⟩

/-- What is printed when the input ends. -/
def farewell : Printed := ⟨"\n", ""⟩

/-- What is printed for a line that is not text. -/
def complaint : Printed :=
  ⟨"", "Failed to read input: " ++ ReadFailure.notText.message ++ "\n"⟩

/-- What is printed for these lines.  The first line that is not text is the last one read. -/
def exchange : List (List UInt8) → List Printed
  | [] => [ask, farewell]
  | line :: rest =>
    match answer? line with
    | some printed => ask :: printed :: exchange rest
    | none => [ask, complaint]

/-- What is printed for an input. -/
def session (input : List UInt8) : Printed := .join (exchange (rawLines input))

end LoxScan.Prompt
