/-
The lines of a text.

* `lineAt?` — the line of a given number, counted from one: the stretch between two newlines,
  without a carriage return at its end;
* `trimEnd` — a line without the white space at its end.
-/
import LoxScan.Text.Ending
import LoxScan.Unicode.WhiteSpace

namespace LoxScan

/-- The line with this number; there is no line zero, and behind the last newline stands the last
line, which may be empty. -/
def lineAt? (source : List Char) : Nat → Option (List Char)
  | 0 => none
  | n + 1 => (source.splitOn '\n')[n]?.map (dropFinal '\r')

/-- The text of a line of the source, without its line ending. -/
def getLine? (source : String) (line : UInt32) : Option String :=
  (lineAt? source.toList line.toNat).map String.ofList

/-- The text without the white space at its end. -/
def trimEnd (s : String) : String := String.ofList (dropEndWhile Unicode.isWhiteSpace s.toList)

end LoxScan
