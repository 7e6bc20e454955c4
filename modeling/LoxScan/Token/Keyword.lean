/-
The reserved words of Lox.

* `Keyword.text` — how a keyword is written;
* `Keyword.ofText?` — the keyword that a word is, if it is reserved (`ofText?_eq_some_iff`).
-/
namespace LoxScan

/-- A reserved word. -/
inductive Keyword
  | andWord | classWord | elseWord | falseWord | forWord | funWord | ifWord | nilWord
  | orWord | printWord | returnWord | superWord | thisWord | trueWord | varWord | whileWord
  deriving DecidableEq

namespace Keyword

/-- How the keyword is written. -/
def text : Keyword → String
  | andWord => "and" | classWord => "class" | elseWord => "else" | falseWord => "false"
  | forWord => "for" | funWord => "fun" | ifWord => "if" | nilWord => "nil"
  | orWord => "or" | printWord => "print" | returnWord => "return" | superWord => "super"
  | thisWord => "this" | trueWord => "true" | varWord => "var" | whileWord => "while"

/-- What the keyword is called. -/
def name : Keyword → String
  | andWord => "And" | classWord => "Class" | elseWord => "Else" | falseWord => "False"
  | forWord => "For" | funWord => "Fun" | ifWord => "If" | nilWord => "Nil"
  | orWord => "Or" | printWord => "Print" | returnWord => "Return" | superWord => "Super"
  | thisWord => "This" | trueWord => "True" | varWord => "Var" | whileWord => "While"

/-- All keywords. -/
def all : List Keyword :=
  [andWord, classWord, elseWord, falseWord, forWord, funWord, ifWord, nilWord,
   orWord, printWord, returnWord, superWord, thisWord, trueWord, varWord, whileWord]

/-- The keyword that a word is, if it is reserved. -/
def ofText? (word : String) : Option Keyword := all.find? (·.text == word)

theorem mem_all (k : Keyword) : k ∈ all := by
  cases k <;> decide

theorem ofText?_text (k : Keyword) : ofText? k.text = some k := by
  cases k <;> rfl

theorem ofText?_eq_some_iff {word : String} {k : Keyword} :
    ofText? word = some k ↔ word = k.text := by
  constructor
  · intro h
    have found := List.find?_some h
    exact (eq_of_beq found).symm
  · rintro rfl
    exact ofText?_text k

end Keyword

end LoxScan
