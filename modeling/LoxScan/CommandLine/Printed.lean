/-
What a run of the command line prints.

* `Printed` — the text on standard output and the text on standard error;
* `Printed.ofScan` — the printout of a scan: a row for each token, and a report for each fault;
* `Outcome` — what is printed, and the exit code.
-/
import LoxScan.Diagnostic.Report
import LoxScan.Scan.Basic

namespace LoxScan

/-- Text for standard output and text for standard error. -/
structure Printed where
  out : String
  err : String
  deriving DecidableEq

namespace Printed

/-- The printouts one after another. -/
def join (ps : List Printed) : Printed :=
  ⟨String.join (ps.map out), String.join (ps.map err)⟩

/-- The printout of the scan of a source that comes from the named file. -/
def ofScan (s : Scan) (source file : String) : Printed :=
  ⟨String.join (s.tokens.map (·.display ++ "\n")),
   String.join (s.diagnostics.map (·.report source file))⟩

end Printed

/-- How a run of the command line ends. -/
structure Outcome where
  exitCode : UInt32
  printed : Printed
  deriving DecidableEq

end LoxScan
