/-
The scan of a source text.

* `scan` — the events of a source in the order of its text, and its last line;
* `Scan.tokens` — the tokens, closed by one that marks the end of the input;
* `Scan.diagnostics` — what is wrong with the source;
* `eventsFrom` — the events of a list of elements from a given line on, and `scan_events`, which
  says that these are the events of the scan.

Design notes: a fault never stops a scan.  Lines are words of 32 bits.
-/
import LoxScan.Element.Cut
import LoxScan.Scan.Event

namespace LoxScan

/-- The outcome of a scan. -/
structure Scan where
  /-- Tokens and faults in the order of the source. -/
  events : List Event
  /-- The line on which the source ends. -/
  lastLine : UInt32
  deriving DecidableEq

/-- How far a scan has come: the events so far, last one first, and the current line. -/
structure Progress where
  found : List Event
  line : UInt32

/-- Goes on by one element. -/
def Progress.next (p : Progress) (e : Element) : Progress where
  found := (e.event? p.line).toList ++ p.found
  line := p.line + UInt32.ofNat e.newlines

/-- Scans a source text. -/
def scan (source : String) : Scan :=
  let p := (cut source.toList).foldl Progress.next ⟨[], 1⟩
  ⟨p.found.reverse, p.line⟩

namespace Scan

/-- The tokens of the source, closed by the end of the input. -/
def tokens (s : Scan) : List Token :=
  s.events.filterMap Event.token? ++ [Token.endOfInput s.lastLine]

/-- What is wrong with the source. -/
def diagnostics (s : Scan) : List Diagnostic := s.events.filterMap Event.diagnostic?

end Scan

/-- The events of elements of which the first begins on the given line. -/
def eventsFrom (line : UInt32) : List Element → List Event
  | [] => []
  | e :: es => (e.event? line).toList ++ eventsFrom (line + UInt32.ofNat e.newlines) es

/-- The line behind elements of which the first begins on the given line. -/
def lineAfter (line : UInt32) : List Element → UInt32
  | [] => line
  | e :: es => lineAfter (line + UInt32.ofNat e.newlines) es

theorem foldl_next (p : Progress) (es : List Element) :
    es.foldl Progress.next p =
      ⟨(eventsFrom p.line es).reverse ++ p.found, lineAfter p.line es⟩ := by
  induction es generalizing p with
  | nil => simp [eventsFrom, lineAfter]
  | cons e es ih =>
    have order : (e.event? p.line).toList.reverse = (e.event? p.line).toList := by
      cases e.event? p.line <;> rfl
    simp [ih, Progress.next, eventsFrom, lineAfter, order]

theorem scan_events (source : String) :
    (scan source).events = eventsFrom 1 (cut source.toList) := by
  simp [scan, foldl_next]

theorem scan_lastLine (source : String) :
    (scan source).lastLine = lineAfter 1 (cut source.toList) := by
  simp [scan, foldl_next]

end LoxScan
