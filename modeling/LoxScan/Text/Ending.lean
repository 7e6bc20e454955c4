/-
What is taken off the end of a list.

* `dropEndWhile` — all elements at the end that have a property;
* `dropFinal` — one given element, if the list ends in it.
-/
namespace LoxScan

variable {α : Type}

/-- Drops the elements at the end that have the property. -/
def dropEndWhile (p : α → Bool) (l : List α) : List α := (l.reverse.dropWhile p).reverse

/-- Drops one `a` at the end, if there is one. -/
def dropFinal [DecidableEq α] (a : α) (l : List α) : List α :=
  if l.getLast? = some a then l.dropLast else l

theorem dropFinal_append_self [DecidableEq α] (a : α) (l : List α) :
    dropFinal a (l ++ [a]) = l := by
  simp [dropFinal]

theorem eq_dropFinal_or [DecidableEq α] (a : α) (l : List α) :
    l = dropFinal a l ∨ l = dropFinal a l ++ [a] := by
  unfold dropFinal
  split
  · next h =>
    obtain ⟨front, rfl⟩ := List.getLast?_eq_some_iff.mp h
    rw [List.dropLast_concat]
    exact Or.inr rfl
  · exact Or.inl rfl

theorem dropFinal_sublist [DecidableEq α] (a : α) (l : List α) : (dropFinal a l).Sublist l := by
  unfold dropFinal
  split
  · exact List.dropLast_sublist l
  · exact List.Sublist.refl l

theorem dropFinal_append_of_not_mem [DecidableEq α] {a : α} {t : List α} (hne : t ≠ [])
    (h : a ∉ t) (l : List α) : dropFinal a (l ++ t) = l ++ t := by
  rw [dropFinal, List.getLast?_append, List.getLast?_eq_some_getLast hne, Option.some_or, if_neg]
  exact fun hlast => h (Option.some.inj hlast ▸ List.getLast_mem hne)

end LoxScan
