/-
The log of a scan.

* `startRecord`, `Event.record`, `endRecord` — the records before a scan, in it and behind it;
* `scanLog` — the records that a scan leaves: one before it, one for each token and each fault in
  the order of the source, and one behind it.
-/
import LoxScan.Scan.Basic

namespace LoxScan

/-- How much detail a record gives. -/
inductive LogLevel
  | debug
  | trace
  deriving DecidableEq

/-- The name under which the level is printed. -/
def LogLevel.name : LogLevel → String
  | debug => "DEBUG"
  | trace => "TRACE"

/-- An entry of the log. -/
structure LogRecord where
  level : LogLevel
  message : String
  deriving DecidableEq

/-- The record before a scan: the size of the source in UTF-8. -/
def startRecord (source : String) : LogRecord :=
  ⟨.debug, "Scanning " ++ source.utf8ByteSize.repr ++ " bytes"⟩

/-- The record of a token or a fault: its row. -/
def Event.record (e : Event) : LogRecord := ⟨.trace, e.display⟩

/-- The record behind a scan: how many tokens it has, with the end of the input, and how many
faults. -/
def endRecord (tokens : List Token) (diagnostics : List Diagnostic) : LogRecord :=
  ⟨.debug, "Scanned " ++ tokens.length.repr ++ " tokens with "
    ++ diagnostics.length.repr ++ " errors"⟩

/-- The log of a scan.  The end of the input has no record of its own. -/
def scanLog (source : String) : List LogRecord :=
  let s := scan source
  startRecord source :: s.events.map Event.record ++ [endRecord s.tokens s.diagnostics]

end LoxScan
