/-
The punctuation marks and operators of Lox.

* `Mark.text` — how a mark is written: one character, or one followed by `=`;
* `Mark.ofChar?` — the mark that a single character is;
* `Mark.withEquals?` — the mark that it becomes when `=` follows.
-/
namespace LoxScan

/-- A punctuation mark or operator. -/
inductive Mark
  | openParen | closeParen | openCurly | closeCurly
  | comma | dot | plus | dash | semicolon | slash | star
  | not | notEquals | assignment | equals
  | less | lessEquals | greater | greaterEquals
  deriving DecidableEq

namespace Mark

/-- How the mark is written. -/
def text : Mark → List Char
  | openParen => ['('] | closeParen => [')'] | openCurly => ['{'] | closeCurly => ['}']
  | comma => [','] | dot => ['.'] | plus => ['+'] | dash => ['-'] | semicolon => [';']
  | slash => ['/'] | star => ['*']
  | not => ['!'] | notEquals => ['!', '='] | assignment => ['='] | equals => ['=', '=']
  | less => ['<'] | lessEquals => ['<', '='] | greater => ['>'] | greaterEquals => ['>', '=']

/-- What the mark is called. -/
def name : Mark → String
  | openParen => "OpenParen" | closeParen => "CloseParen"
  | openCurly => "OpenCurly" | closeCurly => "CloseCurly"
  | comma => "Comma" | dot => "Dot" | plus => "Plus" | dash => "Dash"
  | semicolon => "Semicolon" | slash => "Slash" | star => "Star"
  | not => "Not" | notEquals => "NotEquals" | assignment => "Assignment" | equals => "Equals"
  | less => "Less" | lessEquals => "LessEquals"
  | greater => "Greater" | greaterEquals => "GreaterEquals"

/-- All marks. -/
def all : List Mark :=
  [openParen, closeParen, openCurly, closeCurly, comma, dot, plus, dash, semicolon, slash, star,
   not, notEquals, assignment, equals, less, lessEquals, greater, greaterEquals]

/-- The mark written as this one character. -/
def ofChar? : Char → Option Mark
  | '(' => some openParen | ')' => some closeParen
  | '{' => some openCurly | '}' => some closeCurly
  | ',' => some comma | '.' => some dot | '+' => some plus | '-' => some dash
  | ';' => some semicolon | '/' => some slash | '*' => some star
  | '!' => some not | '=' => some assignment | '<' => some less | '>' => some greater
  | _ => none

/-- The mark written as this one followed by `=`. -/
def withEquals? : Mark → Option Mark
  | not => some notEquals | assignment => some equals
  | less => some lessEquals | greater => some greaterEquals
  | _ => none

theorem text_of_ofChar? {c : Char} {m : Mark} (h : ofChar? c = some m) : m.text = [c] := by
  unfold ofChar? at h
  split at h <;> simp at h <;> subst h <;> rfl

theorem ofChar?_eq_some_iff {c : Char} {m : Mark} : ofChar? c = some m ↔ m.text = [c] := by
  refine ⟨text_of_ofChar?, fun h => ?_⟩
  cases m <;> cases h <;> rfl

theorem text_of_withEquals? {m n : Mark} (h : m.withEquals? = some n) :
    n.text = m.text ++ ['='] := by
  cases m <;> simp [withEquals?] at h <;> subst h <;> rfl

end Mark

end LoxScan
