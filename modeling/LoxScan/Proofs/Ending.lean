/-
What stays of a list when elements are taken off its end.

* `dropEndWhile_eq_rdropWhile` — dropping all elements that have a property is `List.rdropWhile`;
* `getLast?_dropEndWhile`, `dropEndWhile_append_of_pos`, `getElem?_dropEndWhile` — which elements
  stay;
* `dropEndWhile_dropFinal` — one element more or less at the end.
-/
import Mathlib.Data.List.DropRight
import LoxScan.Text.Ending

namespace LoxScan

variable {α : Type} {p : α → Bool}

theorem dropEndWhile_eq_rdropWhile (p : α → Bool) (l : List α) :
    dropEndWhile p l = l.rdropWhile p := rfl

/-- The rest does not end in an element that has the property. -/
theorem getLast?_dropEndWhile (p : α → Bool) (l : List α) :
    ∀ a ∈ (dropEndWhile p l).getLast?, p a = false := by
  intro a ha
  rw [dropEndWhile_eq_rdropWhile] at ha
  obtain ⟨hne, rfl⟩ := List.mem_getLast?_eq_getLast ha
  exact Bool.eq_false_iff.mpr (List.rdropWhile_last_not p l hne)

/-- Nothing stays of an end in which all elements have the property. -/
theorem dropEndWhile_append_of_pos {right : List α} (h : ∀ b ∈ right, p b = true) (left : List α) :
    dropEndWhile p (left ++ right) = dropEndWhile p left := by
  have hright : ∀ b ∈ right.reverse, p b = true := fun b hb => h b (List.mem_reverse.mp hb)
  rw [dropEndWhile, List.reverse_append, List.dropWhile_append_of_pos hright]
  rfl

/-- An element stays if it does not have the property or some later one does not. -/
theorem getElem?_dropEndWhile {a : α} {right : List α} (h : ∃ b ∈ a :: right, p b = false)
    (left : List α) : (dropEndWhile p (left ++ a :: right))[left.length]? = some a := by
  have hsplit : dropEndWhile p (left ++ a :: right) ++ (left ++ a :: right).rtakeWhile p =
      left ++ a :: right := List.rdropWhile_append_rtakeWhile
  have hlt : left.length < (dropEndWhile p (left ++ a :: right)).length := by
    by_contra hle
    -- otherwise all from the element on is dropped
    obtain ⟨b, hb, hpb⟩ := h
    have hdropped := congrArg (List.drop left.length) hsplit
    rw [List.drop_left, List.drop_append, List.drop_eq_nil_of_le (Nat.le_of_not_lt hle),
      List.nil_append] at hdropped
    rw [← hdropped] at hb
    have hall := List.mem_rtakeWhile_imp (List.mem_of_mem_drop hb)
    rw [hpb] at hall
    exact Bool.noConfusion hall
  rw [← List.getElem?_append_left hlt, hsplit, List.getElem?_append_right le_rfl, Nat.sub_self]
  rfl

/-- One element more or less at the end does not matter when all like it are dropped. -/
theorem dropEndWhile_dropFinal [DecidableEq α] {a : α} (h : p a = true) (l : List α) :
    dropEndWhile p (dropFinal a l) = dropEndWhile p l := by
  rcases eq_dropFinal_or a l with heq | heq
  · rw [← heq]
  · have hone : ∀ b ∈ [a], p b = true := by simpa using h
    have hdrop := dropEndWhile_append_of_pos hone (dropFinal a l)
    rw [← heq] at hdrop
    exact hdrop.symm

end LoxScan
