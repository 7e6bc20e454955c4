/-
Reading one element from the start of a text.

* `Element.read` — the element that begins with a character, and the rest behind it;
* `Element.text_read_append` — nothing is lost: the text of the element and the rest are the input;
* `Element.length_read_le` — the rest is a part of what followed the first character.

Design notes: the first character decides what is read, and what is read is always as long as it can
be.  No decision looks further than two characters beyond the element.
-/
import LoxScan.Element.Basic
import LoxScan.Element.Lead

namespace LoxScan.Element

/-- Reads what stands behind a quote: a string up to the next quote, or else an open string. -/
def readString (rest : List Char) : Element × List Char :=
  match rest.dropWhile (· != '"') with
  | [] => (openString rest, [])
  | _ :: after => (string (rest.takeWhile (· != '"')), after)

/-- Reads what stands behind the character of a mark: the rest of a comment, an `=` that belongs to
the mark, or nothing. -/
def readMark (m : Mark) (rest : List Char) : Element × List Char :=
  match m, rest with
  | .slash, '/' :: after => (comment (after.takeWhile (· != '\n')), after.dropWhile (· != '\n'))
  | m, '=' :: after =>
    match m.withEquals? with
    | some n => (mark n, after)
    | none => (mark m, '=' :: after)
  | m, rest => (mark m, rest)

/-- Reads the element that begins with `c`, where `rest` follows. -/
def read (c : Char) (rest : List Char) : Element × List Char :=
  match Lead.of c with
  | .newline => (newline, rest)
  | .blank => (blank c, rest)
  | .quote => readString rest
  | .digit => ((Numeral.read (c :: rest)).map number id)
  | .letter => (word (c :: rest.takeWhile isWordCharacter), rest.dropWhile isWordCharacter)
  | .mark m => readMark m rest
  | .stray => (stray c, rest)

theorem text_readString_append (rest : List Char) :
    (readString rest).1.text ++ (readString rest).2 = '"' :: rest := by
  have split := List.takeWhile_append_dropWhile (p := (· != '"')) (l := rest)
  unfold readString
  match h : rest.dropWhile (· != '"') with
  | [] => simp [text]
  | c :: after =>
    have quote : c = '"' := by
      have first := List.head?_dropWhile_not (· != '"') rest
      simpa [h] using first
    rw [h, quote] at split
    simpa [text] using split

theorem text_readMark_append {c : Char} {m : Mark} (h : m.text = [c]) (rest : List Char) :
    (readMark m rest).1.text ++ (readMark m rest).2 = c :: rest := by
  unfold readMark
  split
  · have slash : c = '/' := by simpa [Mark.text] using h.symm
    simp [text, slash]
  · split
    · next longer => simp [text, Mark.text_of_withEquals? longer, h]
    · simp [text, h]
  · simp [text, h]

/-- **Nothing is lost**: the element and the rest are the text that was read. -/
theorem text_read_append (c : Char) (rest : List Char) :
    (read c rest).1.text ++ (read c rest).2 = c :: rest := by
  unfold read
  split
  · next h => simp [text, Lead.eq_of_of_eq_newline h]
  · simp [text]
  · next h => rw [text_readString_append, Lead.eq_of_of_eq_quote h]
  · simpa [text] using Numeral.text_read_append (c :: rest)
  · simp [text]
  · next h => exact text_readMark_append (Mark.text_of_ofChar? (Lead.ofChar?_of_of_eq_mark h)) rest
  · simp [text]

/-- An element has at least one character. -/
theorem text_read_ne_nil (c : Char) (rest : List Char) : (read c rest).1.text ≠ [] := by
  unfold read
  split
  · simp [text]
  · simp [text]
  · unfold readString
    split <;> simp [text]
  · next h =>
    have digit := Lead.isDigit_of_of_eq_digit h
    unfold Numeral.read
    simp only [List.takeWhile_cons_of_pos digit]
    split
    · split <;> simp [text, Numeral.text]
    · simp [text, Numeral.text]
  · simp [text]
  · next m _ =>
    have nonempty : ∀ n : Mark, n.text ≠ [] := by
      intro n
      cases n <;> simp [Mark.text]
    unfold readMark
    split
    · simp [text]
    · split <;> simp [text, nonempty]
    · simp [text, nonempty]
  · simp [text]

/-- What is left is no longer than what followed the first character. -/
theorem length_read_le (c : Char) (rest : List Char) :
    (read c rest).2.length ≤ rest.length := by
  have total := congrArg List.length (text_read_append c rest)
  have positive := List.length_pos_iff.mpr (text_read_ne_nil c rest)
  simp only [List.length_append, List.length_cons] at total
  omega

end LoxScan.Element
