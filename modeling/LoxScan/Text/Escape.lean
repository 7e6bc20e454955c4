/-
Showing characters that a text on a terminal hides or confuses.

* `escape` — a character as quoted text shows it: a backslash and a letter for a few, the code point
  in hexadecimal for the unprintable ones, and itself otherwise;
* `quote` — a text between double quotes with its characters escaped, except the single quote.
-/
import LoxScan.Unicode.Unprintable

namespace LoxScan

/-- The letter that stands for the character behind a backslash. -/
def escapeLetter? : Char → Option Char
  | '\x00' => some '0'
  | '\t' => some 't'
  | '\r' => some 'r'
  | '\n' => some 'n'
  | '\'' => some '\''
  | '"' => some '"'
  | '\\' => some '\\'
  | _ => none

/-- The character as quoted text shows it. -/
def escape (c : Char) : List Char :=
  match escapeLetter? c with
  | some letter => ['\\', letter]
  | none =>
    if Unicode.isUnprintable c then
      ['\\', 'u', '{'] ++ Nat.toDigits 16 c.toNat ++ ['}']
    else [c]

/-- The text between double quotes.  A single quote needs no escape there. -/
def quote (s : List Char) : List Char :=
  '"' :: s.flatMap (fun c => if c = '\'' then [c] else escape c) ++ ['"']

-- Inside double quotes the single quote stands for itself.
example : escape '\'' = "\\'".toList := by decide +kernel
example : quote ['\'', '"', '\n', '\x01', 'é'] =
    "\"'\\\"\\n\\u\x7b1\x7dé\"".toList := by decide +kernel

end LoxScan
