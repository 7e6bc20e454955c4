/-
Where the elements of a source stand, and on which lines.

* `placed` — each element with the text before it;
* `lineBehind` — the line on which a text ends, from its newlines;
* `scan_events_eq_placed` — the events of a scan are those of its elements, each on the line of the
  text before it, so a scan counts lines exactly;
* `scan_lastLine_eq` — the last line is that of the whole source.
-/
import LoxScan.Scan.Basic

namespace LoxScan

/-- An element and the source before it. -/
structure Placed where
  before : List Char
  element : Element
  deriving DecidableEq

/-- Elements that follow a text, each with what stands before it. -/
def placedFrom (before : List Char) : List Element → List Placed
  | [] => []
  | e :: es => ⟨before, e⟩ :: placedFrom (before ++ e.text) es

/-- The elements of a source in their places. -/
def placed (source : List Char) : List Placed := placedFrom [] (cut source)

/-- The line on which a text ends, counted from one. -/
def lineBehind (before : List Char) : UInt32 := 1 + UInt32.ofNat (before.count '\n')

/-- The event that the element is. -/
def Placed.event? (p : Placed) : Option Event := p.element.event? (lineBehind p.before)

theorem lineBehind_append (before : List Char) (e : Element) :
    lineBehind (before ++ e.text) = lineBehind before + UInt32.ofNat e.newlines := by
  simp [lineBehind, Element.newlines, UInt32.ofNat_add, UInt32.add_assoc]

theorem eventsFrom_lineBehind (before : List Char) (es : List Element) :
    eventsFrom (lineBehind before) es = (placedFrom before es).filterMap Placed.event? := by
  induction es generalizing before with
  | nil => rfl
  | cons e es ih =>
    rw [eventsFrom, ← lineBehind_append, ih, placedFrom, List.filterMap_cons]
    cases h : Placed.event? ⟨before, e⟩ with
    | none =>
      rw [Placed.event?] at h
      simp [h]
    | some event =>
      rw [Placed.event?] at h
      simp [h]

theorem lineAfter_lineBehind (before : List Char) (es : List Element) :
    lineAfter (lineBehind before) es = lineBehind (before ++ es.flatMap Element.text) := by
  induction es generalizing before with
  | nil => simp [lineAfter]
  | cons e es ih => rw [lineAfter, ← lineBehind_append, ih, List.flatMap_cons, List.append_assoc]

/-- **Lines are counted exactly**: every event is that of an element on the line of its place. -/
theorem scan_events_eq_placed (source : String) :
    (scan source).events = (placed source.toList).filterMap Placed.event? := by
  rw [scan_events, placed, ← eventsFrom_lineBehind]
  rfl

/-- The scan ends on the line on which the source ends. -/
theorem scan_lastLine_eq (source : String) :
    (scan source).lastLine = lineBehind source.toList := by
  have total := lineAfter_lineBehind [] (cut source.toList)
  rw [List.nil_append, flatMap_text_cut] at total
  rw [scan_lastLine, ← total]
  rfl

end LoxScan
