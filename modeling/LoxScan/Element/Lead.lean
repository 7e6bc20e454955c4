/-
What the first character of an element says about it.

* `Lead.of` — the class of a first character;
* `Lead.of_isDigit`, `Lead.of_isAlphabetic`, `Lead.of_ofChar?` — each class from the character alone:
  the classes are disjoint, so the order of the tests does not matter;
* `isWordCharacter` — the characters that continue a word.
-/
import LoxScan.Token.Mark
import LoxScan.Unicode.Alphabetic

namespace LoxScan

/-- The class of a first character. -/
inductive Lead
  | newline
  | blank
  | quote
  | digit
  | letter
  | mark (m : Mark)
  | stray
  deriving DecidableEq

/-- The class of a character that begins an element. -/
def Lead.of (c : Char) : Lead :=
  if c = '\n' then newline
  else if c = ' ' ∨ c = '\t' ∨ c = '\r' then blank
  else if c = '"' then quote
  else if c.isDigit then digit
  else if Unicode.isAlphabetic c then letter
  else
    match Mark.ofChar? c with
    | some m => mark m
    | none => stray

namespace Lead

theorem eq_of_of_eq_newline {c : Char} (h : of c = newline) : c = '\n' := by
  unfold of at h
  split at h <;> grind

theorem eq_of_of_eq_quote {c : Char} (h : of c = quote) : c = '"' := by
  unfold of at h
  split at h <;> grind

theorem isBlank_of_of_eq_blank {c : Char} (h : of c = blank) : c = ' ' ∨ c = '\t' ∨ c = '\r' := by
  unfold of at h
  split at h <;> grind

theorem isDigit_of_of_eq_digit {c : Char} (h : of c = digit) : c.isDigit = true := by
  unfold of at h
  split at h <;> grind

theorem isAlphabetic_of_of_eq_letter {c : Char} (h : of c = letter) :
    Unicode.isAlphabetic c = true := by
  unfold of at h
  split at h <;> grind

theorem ofChar?_of_of_eq_mark {c : Char} {m : Mark} (h : of c = mark m) :
    Mark.ofChar? c = some m := by
  unfold of at h
  split at h <;> grind

theorem of_quote : of '"' = quote := rfl

theorem of_isBlank {c : Char} (h : c = ' ' ∨ c = '\t' ∨ c = '\r') : of c = blank := by
  rcases h with rfl | rfl | rfl <;> rfl

theorem of_isDigit {c : Char} (h : c.isDigit = true) : of c = digit := by
  have hother : c ≠ '\n' ∧ (c ≠ ' ' ∧ c ≠ '\t' ∧ c ≠ '\r') ∧ c ≠ '"' := by
    refine ⟨?_, ⟨?_, ?_, ?_⟩, ?_⟩ <;> rintro rfl <;> exact absurd h (by decide)
  obtain ⟨hnewline, hblank, hquote⟩ := hother
  rw [of, if_neg hnewline, if_neg (by simpa using hblank), if_neg hquote, if_pos h]

theorem of_isAlphabetic {c : Char} (h : Unicode.isAlphabetic c = true) : of c = letter := by
  have hother : c ≠ '\n' ∧ (c ≠ ' ' ∧ c ≠ '\t' ∧ c ≠ '\r') ∧ c ≠ '"' := by
    refine ⟨?_, ⟨?_, ?_, ?_⟩, ?_⟩ <;> rintro rfl <;>
      exact absurd h (by rw [Unicode.isAlphabetic_of_ascii] <;> decide)
  obtain ⟨hnewline, hblank, hquote⟩ := hother
  have hdigit : ¬ c.isDigit = true := by
    intro hd
    rw [Unicode.isAlphabetic_of_isDigit hd] at h
    exact absurd h (by decide)
  rw [of, if_neg hnewline, if_neg (by simpa using hblank), if_neg hquote, if_neg hdigit, if_pos h]

theorem of_ofChar? {c : Char} {m : Mark} (h : Mark.ofChar? c = some m) : of c = mark m := by
  have hascii : c.toNat < 0x80 ∧ c.isAlpha = false := by
    unfold Mark.ofChar? at h
    split at h <;> first | decide | cases h
  have hletter : ¬ Unicode.isAlphabetic c = true := by
    rw [Unicode.isAlphabetic_of_ascii hascii.1, hascii.2]
    decide
  have hother : c ≠ '\n' ∧ (c ≠ ' ' ∧ c ≠ '\t' ∧ c ≠ '\r') ∧ c ≠ '"' ∧ ¬ c.isDigit = true := by
    unfold Mark.ofChar? at h
    split at h <;> first | decide | cases h
  obtain ⟨hnewline, hblank, hquote, hdigit⟩ := hother
  rw [of, if_neg hnewline, if_neg (by simpa using hblank), if_neg hquote, if_neg hdigit,
    if_neg hletter, h]

theorem of_eq_digit_iff {c : Char} : of c = digit ↔ c.isDigit = true :=
  ⟨isDigit_of_of_eq_digit, of_isDigit⟩

theorem of_eq_letter_iff {c : Char} : of c = letter ↔ Unicode.isAlphabetic c = true :=
  ⟨isAlphabetic_of_of_eq_letter, of_isAlphabetic⟩

theorem of_eq_mark_iff {c : Char} {m : Mark} : of c = mark m ↔ m.text = [c] := by
  rw [← Mark.ofChar?_eq_some_iff]
  exact ⟨ofChar?_of_of_eq_mark, of_ofChar?⟩

end Lead

/-- Whether the character continues a word: a letter of any script or an ASCII digit. -/
def isWordCharacter (c : Char) : Bool := Unicode.isAlphabetic c || c.isDigit

end LoxScan
