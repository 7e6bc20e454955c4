/-
Cutting a text into elements.

* `cut` — the elements of a text, in order;
* `cut_nil`, `cut_cons` — the recursion by which the cut is computed: read one element, then cut the
  rest;
* `flatMap_text_cut` — the elements spell out the text.

Design notes: the elements are gathered in reverse, so that a long text needs no deep recursion.
-/
import LoxScan.Element.Read

namespace LoxScan

/-- Cuts a text, given the elements before it, last one first. -/
def cutOnto (before : List Element) : List Char → List Element
  | [] => before.reverse
  | c :: rest => cutOnto ((Element.read c rest).1 :: before) (Element.read c rest).2
termination_by s => s.length
decreasing_by
  have := Element.length_read_le c rest
  simp only [List.length_cons]
  omega

/-- The elements of a text. -/
def cut (s : List Char) : List Element := cutOnto [] s

theorem cutOnto_eq_append (before : List Element) (s : List Char) :
    cutOnto before s = before.reverse ++ cut s := by
  induction h : s.length using Nat.strongRecOn generalizing before s with
  | ind n ih =>
    cases s with
    | nil => simp [cut, cutOnto]
    | cons c rest =>
      have shorter := Element.length_read_le c rest
      simp only [List.length_cons] at h
      have step := fun acc => ih (Element.read c rest).2.length (by omega) acc _ rfl
      rw [cut, cutOnto, cutOnto, step, step]
      simp

@[simp] theorem cut_nil : cut [] = [] := by
  simp [cut, cutOnto]

theorem cut_cons (c : Char) (rest : List Char) :
    cut (c :: rest) = (Element.read c rest).1 :: cut (Element.read c rest).2 := by
  rw [cut, cutOnto, cutOnto_eq_append]
  simp

/-- **The elements spell out the text.** -/
theorem flatMap_text_cut (s : List Char) : (cut s).flatMap Element.text = s := by
  induction h : s.length using Nat.strongRecOn generalizing s with
  | ind n ih =>
    cases s with
    | nil => simp
    | cons c rest =>
      have shorter := Element.length_read_le c rest
      simp only [List.length_cons] at h
      rw [cut_cons, List.flatMap_cons, ih _ (by omega) _ rfl, Element.text_read_append]

end LoxScan
