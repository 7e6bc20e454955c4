/-
Scanning one file.

* `decode?` — the text that some bytes are in UTF-8;
* `ReadFailure` — why a file gives no text, with its `message`;
* `runFile` — the outcome for a file, given its bytes or the reason why there are none.
-/
import LoxScan.CommandLine.Printed

namespace LoxScan

/-- The text of which these bytes are the UTF-8 form, if there is one. -/
def decode? (bytes : List UInt8) : Option String := String.fromUTF8? bytes.toByteArray

/-- Why a file cannot be read as text. -/
inductive ReadFailure
  | notFound
  | notADirectory
  | isADirectory
  | nameTooLong
  /-- The bytes are not UTF-8. -/
  | notText
  /-- Any other reason that the operating system gives. -/
  | system (reason : String) (code : UInt32)
  deriving DecidableEq

namespace ReadFailure

/-- The reason in words, with the number that the operating system has for it. -/
def message : ReadFailure → String
  | notFound => "No such file or directory (os error 2)"
  | notADirectory => "Not a directory (os error 20)"
  | isADirectory => "Is a directory (os error 21)"
  | nameTooLong => "File name too long (os error 36)"
  | notText => "stream did not contain valid UTF-8"
  | system reason code => reason ++ " (os error " ++ code.toNat.repr ++ ")"

end ReadFailure

/-- The exit code of a scan with faults. -/
def faultyExit : UInt32 := 65

/-- The exit code when the file cannot be read. -/
def unreadableExit : UInt32 := 66

/-- The outcome when the file cannot be read. -/
def failedRead (path : String) (why : ReadFailure) : Outcome :=
  ⟨unreadableExit, "", "Failed to read file '" ++ path ++ "': " ++ why.message ++ "\n"⟩

/-- The outcome for the text of a file. -/
def runText (source path : String) : Outcome :=
  let s := scan source
  ⟨if s.diagnostics = [] then 0 else faultyExit, .ofScan s source path⟩

/-- The outcome for a file with these bytes, or with this reason why there are none. -/
def runFile (path : String) (contents : Except ReadFailure (List UInt8)) : Outcome :=
  match contents with
  | .error why => failedRead path why
  | .ok bytes =>
    match decode? bytes with
    | none => failedRead path .notText
    | some source => runText source path

end LoxScan
