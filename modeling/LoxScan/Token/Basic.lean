/-
Tokens: a kind, the text, the value of a literal, and a line.

* `Token.display` — the token as one row of output;
* `==` on tokens — equality with numbers compared by value (`Binary64`), where `=` compares bits.
-/
import LoxScan.Number.Shortest
import LoxScan.Token.Kind

namespace LoxScan

/-- The value that a string or number token carries. -/
inductive Literal
  | text (value : String)
  | number (value : Binary64)
  deriving DecidableEq

namespace Literal

/-- The value as text: a string as it is, a number in shortest form. -/
def display : Literal → String
  | text value => value
  | number value => value.display

instance : BEq Literal where
  beq
    | text s, text t => s == t
    | number x, number y => x == y
    | _, _ => false

end Literal

/-- A token of the source. -/
structure Token where
  kind : Kind
  /-- The text from which the token was read. -/
  lexeme : String
  literal : Option Literal
  /-- The line of the first character, counted from one. -/
  line : UInt32
  deriving DecidableEq

namespace Token

/-- The token as a row: its kind, its text and the value of a literal. -/
def display (t : Token) : String :=
  match t.literal with
  | some value => t.kind.name ++ " " ++ t.lexeme ++ " " ++ value.display
  | none => t.kind.name ++ " " ++ t.lexeme

/-- Whether the token has one of these kinds. -/
def isOneOf (t : Token) (kinds : List Kind) : Bool := decide (t.kind ∈ kinds)

/-- Whether the token marks the end of the source. -/
def isEndOfInput (t : Token) : Bool := t.kind = .endOfInput

/-- The token behind the last character. -/
def endOfInput (line : UInt32) : Token := ⟨.endOfInput, "", none, line⟩

instance : BEq Token where
  beq s t :=
    decide (s.kind = t.kind) && s.lexeme == t.lexeme && s.literal == t.literal && s.line == t.line

end Token

end LoxScan
