/-
The kinds of tokens.

* `Kind.name` — the name under which a kind is printed;
* `Kind.ofName?` — the kind of that name (`name_injective`: no two kinds share one);
* `Kind.ofWord` — the kind of a word: reserved, or an identifier.
-/
import LoxScan.Token.Keyword
import LoxScan.Token.Mark

namespace LoxScan

/-- What a token is, apart from its text. -/
inductive Kind
  | mark (m : Mark)
  | identifier
  | string
  | number
  | keyword (k : Keyword)
  | endOfInput
  deriving DecidableEq

namespace Kind

/-- The name under which the kind is printed. -/
def name : Kind → String
  | mark m => m.name
  | identifier => "Identifier"
  | string => "String"
  | number => "Number"
  | keyword k => k.name
  | endOfInput => "EOF"

/-- All kinds. -/
def all : List Kind :=
  Mark.all.map mark ++ [identifier, string, number] ++ Keyword.all.map keyword ++ [endOfInput]

/-- The kind of this name. -/
def ofName? (name : String) : Option Kind := all.find? (·.name == name)

/-- Whether the kind is that of a reserved word. -/
def isReserved : Kind → Bool
  | keyword _ => true
  | _ => false

/-- The kind of a word. -/
def ofWord (word : String) : Kind :=
  match Keyword.ofText? word with
  | some k => keyword k
  | none => identifier

theorem ofName?_name (k : Kind) : ofName? k.name = some k := by
  cases k with
  | mark m => cases m <;> rfl
  | keyword w => cases w <;> rfl
  | _ => rfl

theorem name_injective {k l : Kind} (h : k.name = l.name) : k = l := by
  have found := ofName?_name k
  rw [h, ofName?_name] at found
  exact (Option.some.inj found).symm

end Kind

end LoxScan
