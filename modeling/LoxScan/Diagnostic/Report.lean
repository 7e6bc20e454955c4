/-
The report of a diagnostic: the statement, the file, the line of the source and a tip, in rows whose
bars stand below each other.

* `Diagnostic.rows` — the rows;
* `Diagnostic.report` — the rows as text, each with a newline.

For instance:

    [line 2] Error: Unexpected character
    -> script.lox
      |
    2 | var a = @;
      = (the tip)
-/
import LoxScan.Diagnostic.Basic
import LoxScan.Text.Line

namespace LoxScan.Diagnostic

/-- The line number as it stands in front of the bar. -/
def label (d : Diagnostic) : String := d.line.toNat.repr

/-- Blanks as wide as the line number and the blank behind it. -/
def margin (d : Diagnostic) : String := String.ofList (List.replicate (d.label.length + 1) ' ')

/-- The row with the line of the source, if the source has that line.  White space at the end of the
line is not shown. -/
def sourceRow? (d : Diagnostic) (source : String) : Option String :=
  (getLine? source d.line).map fun line =>
    let shown := trimEnd line
    if shown = "" then d.label ++ " |" else d.label ++ " | " ++ shown

/-- The row with the tip, if there is one. -/
def tipRow? (d : Diagnostic) : Option String :=
  d.fault.tip?.map fun tip => d.margin ++ "= " ++ tip

/-- The rows of the report. -/
def rows (d : Diagnostic) (source file : String) : List String :=
  [d.display, "-> " ++ file, d.margin ++ "|"] ++ (d.sourceRow? source).toList ++ d.tipRow?.toList

/-- The report as text. -/
def report (d : Diagnostic) (source file : String) : String :=
  String.join ((d.rows source file).map (· ++ "\n"))

end LoxScan.Diagnostic
