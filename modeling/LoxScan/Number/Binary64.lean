/-
Binary64 numbers, as their 64 bits.

* `Binary64.rank` — the bits without the sign: the nonnegative values in increasing order, from zero
  through the finite values to infinity at `infiniteRank`; anything above is not a number;
* `Binary64.units` — the value of a rank as a multiple of `2 ^ -1074`, the least positive value;
* `==` — numeric equality: zero equals its negative, and what is not a number equals nothing.

Design notes: exact natural arithmetic on ranks and units takes the place of a fraction and an
exponent, so rounding and printing need no floating-point operation.
-/
namespace LoxScan

/-- A binary64 number. -/
structure Binary64 where
  bits : UInt64
  deriving DecidableEq

namespace Binary64

/-- How many bits hold the fraction. -/
def fractionBits : Nat := 52

/-- How many values share an exponent. -/
def binade : Nat := Nat.pow 2 fractionBits

/-- The sign bit. -/
def signBit : Nat := Nat.pow 2 63

/-- The number one as a multiple of the least positive value. -/
def unitsOfOne : Nat := Nat.pow 2 1074

/-- The rank of infinity: the largest exponent and an empty fraction. -/
def infiniteRank : Nat := 2047 * binade

/-- The nonnegative number of a rank. -/
def ofRank (n : Nat) : Binary64 := ⟨UInt64.ofNat n⟩

/-- The bits without the sign. -/
def rank (x : Binary64) : Nat := x.bits.toNat % signBit

/-- Whether the sign bit is set. -/
def isNegative (x : Binary64) : Bool := signBit ≤ x.bits.toNat

/-- Whether the bits denote no number. -/
def isNaN (x : Binary64) : Bool := infiniteRank < x.rank

/-- The value of a rank in multiples of the least positive value.  In the first binade they are the
same, as in the second; from there on the spacing doubles with every binade. -/
def units (n : Nat) : Nat :=
  if n < binade then n else (binade + n % binade) * Nat.pow 2 (n / binade - 1)

/-- Numeric equality. -/
def numericEq (x y : Binary64) : Bool :=
  !x.isNaN && !y.isNaN && (x.bits == y.bits || x.rank == 0 && y.rank == 0)

instance : BEq Binary64 := ⟨numericEq⟩

end Binary64

end LoxScan
