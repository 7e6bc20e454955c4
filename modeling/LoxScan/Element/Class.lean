/-
The classes of elements, described without the reading of them.

* `Numeral.WellFormed` — digits, and after a point digits again;
* `Element.WellFormed` — the element belongs to one of the classes blank, newline, comment, mark,
  word, number and string;
* `Element.wellFormed_read` — what is read at the start of a text is well formed, unless it is an
  open string or a stray character, and those have a fault;
* `Element.fault?_eq_none` — a well-formed element has none.
-/
import LoxScan.Element.Read

namespace LoxScan

/-- Digits only, and at least one in front of the point. -/
def Numeral.WellFormed (n : Numeral) : Prop :=
  n.whole ≠ [] ∧ ∀ d ∈ n.whole ++ n.fraction, d.isDigit = true

namespace Element

/-- The element is one of those of which a text without faults consists. -/
def WellFormed : Element → Prop
  | blank c => c = ' ' ∨ c = '\t' ∨ c = '\r'
  | newline => True
  | comment body => '\n' ∉ body
  | mark _ => True
  | word letters => ∃ c rest, letters = c :: rest ∧ Unicode.isAlphabetic c = true ∧
      ∀ d ∈ rest, isWordCharacter d = true
  | number n => n.WellFormed
  | string body => '"' ∉ body
  | openString _ => False
  | stray _ => False

/-- Everything in front of the first place where the property fails has it. -/
theorem of_mem_takeWhile {p : Char → Bool} {s : List Char} {c : Char} (h : c ∈ s.takeWhile p) :
    p c = true := by
  have whole := List.all_takeWhile (l := s) (p := p)
  exact List.all_eq_true.mp whole c h

theorem wellFormed_numeral {c : Char} (digit : c.isDigit = true) (rest : List Char) :
    (Numeral.read (c :: rest)).1.WellFormed := by
  have first : ∀ d ∈ (c :: rest).takeWhile Char.isDigit, d.isDigit = true :=
    fun d hd => of_mem_takeWhile hd
  have nonempty : (c :: rest).takeWhile Char.isDigit ≠ [] := by
    simp [List.takeWhile_cons_of_pos digit]
  unfold Numeral.read
  split
  · next d after _ =>
    split
    · next second =>
      refine ⟨nonempty, fun e he => ?_⟩
      rcases List.mem_append.mp he with inWhole | inFraction
      · exact first e inWhole
      · rcases List.mem_cons.mp inFraction with rfl | later
        · exact second
        · exact of_mem_takeWhile later
    · exact ⟨nonempty, fun e he => first e (by simpa using he)⟩
  · exact ⟨nonempty, fun e he => first e (by simpa using he)⟩

theorem wellFormed_readMark (m : Mark) (rest : List Char) : (readMark m rest).1.WellFormed := by
  unfold readMark
  split
  · intro inside
    simpa using of_mem_takeWhile inside
  · split <;> exact trivial
  · exact trivial

/-- **What is read is well formed or has a fault.** -/
theorem wellFormed_read (c : Char) (rest : List Char) :
    (read c rest).1.WellFormed ∨ (read c rest).1.fault?.isSome = true := by
  unfold read
  split
  · exact Or.inl trivial
  · next h => exact Or.inl (Lead.isBlank_of_of_eq_blank h)
  · unfold readString
    split
    · exact Or.inr rfl
    · refine Or.inl fun inside => ?_
      simpa using of_mem_takeWhile inside
  · next h => exact Or.inl (wellFormed_numeral (Lead.isDigit_of_of_eq_digit h) rest)
  · next h =>
    refine Or.inl ⟨c, _, rfl, Lead.isAlphabetic_of_of_eq_letter h, fun d hd => ?_⟩
    exact of_mem_takeWhile hd
  · exact Or.inl (wellFormed_readMark _ rest)
  · exact Or.inr rfl

theorem fault?_eq_none {e : Element} (h : e.WellFormed) : e.fault? = none := by
  cases e with
  | openString body => exact h.elim
  | stray c => exact h.elim
  | _ => rfl

end Element

end LoxScan
