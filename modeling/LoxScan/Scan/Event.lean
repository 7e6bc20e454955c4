/-
What a scan meets: tokens and diagnostics.

* `Element.event?` — the event that an element is, given the line on which the element begins: a
  token stands on that line, a fault is noticed where the element ends;
* `Event.display` — the event as a row.
-/
import LoxScan.Element.Basic

namespace LoxScan

/-- A token or a diagnostic. -/
inductive Event
  | token (t : Token)
  | fault (d : Diagnostic)
  deriving DecidableEq

namespace Event

/-- The event as a row. -/
def display : Event → String
  | token t => t.display
  | fault d => d.display

/-- The token, if the event is one. -/
def token? : Event → Option Token
  | token t => some t
  | fault _ => none

/-- The diagnostic, if the event is one. -/
def diagnostic? : Event → Option Diagnostic
  | token _ => none
  | fault d => some d

end Event

/-- The event that the element is, where `line` is the line of its first character. -/
def Element.event? (line : UInt32) (e : Element) : Option Event :=
  match e.meaning? with
  | some (kind, literal) => some (.token ⟨kind, String.ofList e.text, literal, line⟩)
  | none => e.fault?.map fun fault => .fault ⟨fault, line + UInt32.ofNat e.newlines⟩

end LoxScan
