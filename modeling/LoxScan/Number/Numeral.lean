/-
Decimal numerals: ASCII digits, optionally followed by a point and more digits.

* `Numeral.text` — the numeral as written;
* `Numeral.numerator`, `Numeral.denominator` — the fraction that it denotes;
* `Numeral.read` — the longest numeral at the start of a text, and the rest of the text; a point
  belongs to the numeral only if a digit follows it (`text_read_append`: nothing is lost);
* `Numeral.ofScaled` — the numeral of a given `n / 10 ^ places` without trailing zeros after the
  point, and without a point if nothing would follow it.
-/
import LoxScan.Text.Ending

namespace LoxScan

/-- Digits before the point, and digits after it; without the latter there is no point. -/
structure Numeral where
  whole : List Char
  fraction : List Char
  deriving DecidableEq

namespace Numeral

/-- The numeral as written. -/
def text (n : Numeral) : List Char :=
  if n.fraction = [] then n.whole else n.whole ++ '.' :: n.fraction

/-- The number without its point. -/
def numerator (n : Numeral) : Nat := Nat.ofDigitChars 10 (n.whole ++ n.fraction) 0

/-- Ten to the number of digits behind the point. -/
def denominator (n : Numeral) : Nat := Nat.pow 10 n.fraction.length

/-- Reads the longest numeral at the start of a text.  A point without a digit after it is left in
the rest. -/
def read (s : List Char) : Numeral × List Char :=
  let whole := s.takeWhile Char.isDigit
  match s.dropWhile Char.isDigit with
  | '.' :: d :: rest =>
    if d.isDigit then
      (⟨whole, d :: rest.takeWhile Char.isDigit⟩, rest.dropWhile Char.isDigit)
    else
      (⟨whole, []⟩, '.' :: d :: rest)
  | rest => (⟨whole, []⟩, rest)

theorem text_read_append (s : List Char) : (read s).1.text ++ (read s).2 = s := by
  unfold read
  have split := List.takeWhile_append_dropWhile (p := Char.isDigit) (l := s)
  match h : s.dropWhile Char.isDigit with
  | [] => simpa [h, text] using split
  | [c] =>
    rw [h] at split
    simpa [text] using split
  | c :: d :: rest =>
    rw [h] at split
    by_cases point : c = '.'
    · subst point
      by_cases digit : d.isDigit = true
      · simpa [digit, text] using split
      · simpa [digit, text] using split
    · simpa [point, text] using split

/-- Writes `n / 10 ^ places`.  With `one = 10 ^ places`, the digits after the point are those of
`one + n % one` behind its leading one, which keeps the zeros right after the point. -/
def ofScaled (n places : Nat) : Numeral :=
  let one := Nat.pow 10 places
  { whole := Nat.toDigits 10 (n / one)
    fraction := dropEndWhile (· == '0') (Nat.toDigits 10 (one + n % one)).tail }

end Numeral

end LoxScan
