/-
Elements: the pieces into which a source text falls.

* `Element` — blanks, newlines, comments, marks, words, numbers and strings, and the two ways in
  which a text can go wrong: an open string and a stray character;
* `Element.text` — the characters of an element;
* `Element.meaning?` — the kind and the literal of the elements that are tokens;
* `Element.fault?` — the fault of the elements that are none.
-/
import LoxScan.Diagnostic.Basic
import LoxScan.Token.Basic

namespace LoxScan

/-- A piece of source text. -/
inductive Element
  /-- A space, a tab or a carriage return. -/
  | blank (c : Char)
  | newline
  /-- Two slashes and a text that ends before a newline. -/
  | comment (body : List Char)
  | mark (m : Mark)
  /-- A letter, followed by letters and digits. -/
  | word (letters : List Char)
  | number (n : Numeral)
  /-- A text between two quotes. -/
  | string (body : List Char)
  /-- A quote and the whole rest of the source, which has no other. -/
  | openString (body : List Char)
  /-- A character that begins nothing else. -/
  | stray (c : Char)
  deriving DecidableEq

namespace Element

/-- The characters of the element. -/
def text : Element → List Char
  | blank c => [c]
  | newline => ['\n']
  | comment body => '/' :: '/' :: body
  | mark m => m.text
  | word letters => letters
  | number n => n.text
  | string body => '"' :: body ++ ['"']
  | openString body => '"' :: body
  | stray c => [c]

/-- How many newlines the element holds. -/
def newlines (e : Element) : Nat := e.text.count '\n'

/-- The kind and the literal of the token that the element is. -/
def meaning? : Element → Option (Kind × Option Literal)
  | mark m => some (.mark m, none)
  | word letters => some (.ofWord (String.ofList letters), none)
  | number n => some (.number, some (.number n.value))
  | string body => some (.string, some (.text (String.ofList body)))
  | _ => none

/-- What is wrong with the element. -/
def fault? : Element → Option Fault
  | openString _ => some .unterminatedString
  | stray c => some (.unexpectedCharacter c)
  | _ => none

end Element

end LoxScan
