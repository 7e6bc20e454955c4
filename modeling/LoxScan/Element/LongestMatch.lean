/-
Cutting a text by the rule of the longest match, stated without the reading of elements.

* `Element.LongestAt` — a well-formed element at the start of a text, no shorter than any other
  one;
* `Unmatched` — no well-formed element stands at the start of a text;
* `LongestCut` — the cuts in which every element is the longest one, and where none matches the
  element is the open string that takes the whole rest, or else one stray character;
* `LongestCut.flatMap_text` — the elements of such a cut spell out the text.
-/
import LoxScan.Element.Class

namespace LoxScan

/-- The element stands at the start of the text, and no longer well-formed element does. -/
def Element.LongestAt (e : Element) (s : List Char) : Prop :=
  e.WellFormed ∧ e.text <+: s ∧
    ∀ d : Element, d.WellFormed → d.text <+: s → d.text.length ≤ e.text.length

/-- No well-formed element stands at the start of the text. -/
def Unmatched (s : List Char) : Prop := ∀ d : Element, d.WellFormed → ¬ d.text <+: s

/-- A cut of a text by the longest match. -/
inductive LongestCut : List Char → List Element → Prop
  | nil : LongestCut [] []
  | matched {e : Element} {rest : List Char} {es : List Element} :
      e.LongestAt (e.text ++ rest) → LongestCut rest es → LongestCut (e.text ++ rest) (e :: es)
  | openString {body : List Char} :
      Unmatched ('"' :: body) → LongestCut ('"' :: body) [.openString body]
  | stray {c : Char} {rest : List Char} {es : List Element} :
      c ≠ '"' → Unmatched (c :: rest) → LongestCut rest es → LongestCut (c :: rest) (.stray c :: es)

/-- The elements of a cut spell out the text. -/
theorem LongestCut.flatMap_text {s : List Char} {es : List Element} (h : LongestCut s es) :
    es.flatMap Element.text = s := by
  induction h with
  | nil => rfl
  | matched _ _ ih => rw [List.flatMap_cons, ih]
  | openString _ => simp [Element.text]
  | stray _ _ _ ih =>
    rw [List.flatMap_cons, ih]
    rfl

end LoxScan
