/-
The faults of a source, found one character at a time and without any tokens.

* `Mode` — what the characters read so far leave open;
* `Mode.after` — the mode behind one more character;
* `Mode.rejects` — whether that character is a fault;
* `faultsFrom` — the faults of a text with the numbers of their lines, given the mode and the line at
  its start.
-/
import LoxScan.Diagnostic.Basic
import LoxScan.Unicode.Alphabetic

namespace LoxScan

/-- What the characters read so far leave open. -/
inductive Mode
  | code
  /-- A slash that may begin a comment. -/
  | slash
  | comment
  | string
  deriving DecidableEq

/-- Whether the character can stand outside of comments and strings. -/
def isCodeCharacter (c : Char) : Bool :=
  c ∈ [' ', '\r', '\t', '\n', '(', ')', '{', '}', ',', '.', '-', '+', ';', '*', '!', '=', '<', '>',
    '/', '"'] || c.isDigit || Unicode.isAlphabetic c

namespace Mode

/-- The mode behind a character that is not in a comment or a string. -/
def afterCode : Char → Mode
  | '"' => string
  | '/' => slash
  | _ => code

/-- The mode behind one more character. -/
def after : Mode → Char → Mode
  | code, c => afterCode c
  | slash, c => if c = '/' then comment else afterCode c
  | comment, c => if c = '\n' then code else comment
  | string, c => if c = '"' then code else string

/-- Whether the character is a fault in this mode. -/
def rejects : Mode → Char → Bool
  | code, c | slash, c => !isCodeCharacter c
  | comment, _ | string, _ => false

end Mode

/-- The faults of a text that begins in this mode and on this line, each with the number of its
line. -/
def faultsFrom (mode : Mode) (line : Nat) : List Char → List (Fault × Nat)
  | [] => if mode = .string then [(.unterminatedString, line)] else []
  | c :: rest =>
    let later := faultsFrom (mode.after c) (if c = '\n' then line + 1 else line) rest
    if mode.rejects c then (.unexpectedCharacter c, line) :: later else later

end LoxScan
