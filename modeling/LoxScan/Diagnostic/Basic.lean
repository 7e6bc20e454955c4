/-
Diagnostics: what is wrong with a source text, and on which line.

* `Fault` — the causes, with their `name`, `message` and, where there is one, a `tip?`;
* `Diagnostic.display` — the row that states a diagnostic.
-/
import LoxScan.Text.Escape

namespace LoxScan

/-- What can be wrong with a text. -/
inductive Fault
  /-- No token begins with this character. -/
  | unexpectedCharacter (c : Char)
  /-- The source ends inside a string. -/
  | unterminatedString
  /-- A numeral without a value; no scan reports this. -/
  | unreadableNumber (text : String)
  deriving DecidableEq

namespace Fault

/-- The name of the cause. -/
def name : Fault → String
  | unexpectedCharacter _ => "UnexpectedCharacter"
  | unterminatedString => "UnterminatedString"
  | unreadableNumber _ => "NumberParseError"

/-- The statement of the cause. -/
def message : Fault → String
  | unexpectedCharacter _ => "Unexpected character"
  | unterminatedString => "Unterminated string"
  | unreadableNumber text => "error parsing number: " ++ String.ofList (quote text.toList)

/-- What the reader may do about it. -/
def tip? : Fault → Option String
  | unexpectedCharacter c =>
    some ("`" ++ String.ofList (escape c) ++ "` does not start any token")
  | unterminatedString => some "Add a closing `\"` to end the string"
  | unreadableNumber _ => none

end Fault

/-- A fault and the line on which it was noticed. -/
structure Diagnostic where
  fault : Fault
  line : UInt32
  deriving DecidableEq

/-- The row that states the diagnostic. -/
def Diagnostic.display (d : Diagnostic) : String :=
  "[line " ++ d.line.toNat.repr ++ "] Error: " ++ d.fault.message

end LoxScan
