/-
Rounding a fraction to the nearest binary64 number, ties to even.

* `roundHalfEven` — a quotient rounded to an integer;
* `Binary64.nearestRank` — the rank nearest to a fraction; from half a spacing above the largest
  finite value on, it is infinity;
* `Numeral.value` — the number that a numeral stands for, whatever its length.
-/
import LoxScan.Number.Binary64
import LoxScan.Number.Numeral

namespace LoxScan

/-- The integer nearest to `num / den`; of two equally near ones, the even one. -/
def roundHalfEven (num den : Nat) : Nat :=
  let quotient := num / den
  let twice := 2 * (num % den)
  if twice < den ∨ twice = den ∧ quotient % 2 = 0 then quotient else quotient + 1

/-- The rank nearest to `num / den`.  In multiples of the least positive value the fraction has
`shift` binary digits too many; without them it is an integer of at most 53 binary digits, and a
carry out of these is the step to the next exponent. -/
def Binary64.nearestRank (num den : Nat) : Nat :=
  let scaled := num * unitsOfOne
  let shift := (scaled / den).log2 - fractionBits
  min infiniteRank (shift * binade + roundHalfEven scaled (den * Nat.pow 2 shift))

/-- The binary64 number nearest to a numeral. -/
def Numeral.value (n : Numeral) : Binary64 :=
  .ofRank (Binary64.nearestRank n.numerator n.denominator)

end LoxScan
