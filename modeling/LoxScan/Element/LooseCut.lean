/-
Cutting a text into well-formed elements in any way.

* `Element.MayPrecede` — what may follow an element: behind a slash there is no other one, and a
  comment goes on to a newline or to the end of the source;
* `LooseCut` — the cuts in which nothing else is asked of the elements, so that words and numbers
  may be cut anywhere and no element needs to be the longest one;
* `Acceptable` — the text has such a cut.
-/
import LoxScan.Element.Class

namespace LoxScan

/-- The text may follow the element. -/
def Element.MayPrecede (e : Element) (rest : List Char) : Prop :=
  match e with
  | mark m => m = .slash → ∀ c ∈ rest.head?, c ≠ '/'
  | comment _ => ∀ c ∈ rest.head?, c = '\n'
  | _ => True

/-- A cut of a text into well-formed elements, each of which may precede the rest. -/
inductive LooseCut : List Char → List Element → Prop
  | nil : LooseCut [] []
  | cons {e : Element} {rest : List Char} {es : List Element} :
      e.WellFormed → e.MayPrecede rest → LooseCut rest es → LooseCut (e.text ++ rest) (e :: es)

/-- The text consists of blanks, newlines, comments, marks, words, numbers and closed strings. -/
def Acceptable (s : List Char) : Prop := ∃ es, LooseCut s es

end LoxScan
