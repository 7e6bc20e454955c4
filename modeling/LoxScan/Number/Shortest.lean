/-
Printing a binary64 number with the fewest decimal digits that read back to it.

* `Binary64.onGrid?` — the multiple of a power of ten next to the exact value that reads back, the
  nearer of two, and of two equally near ones the larger;
* `Binary64.shortest` — the numeral from the coarsest grid that has one;
* `Binary64.display` — the whole text, with sign, infinity and what is not a number.

Design notes: a finite value is a multiple of `10 ^ -1074`, so it is an integer in those units,
and the grids are the multiples of `10 ^ j` from a coarse one downwards.  The finest grid holds
the value itself, so the search needs no bound.  Reading back is `nearestRank` itself.
-/
import LoxScan.Number.Nearest

namespace LoxScan.Binary64

/-- How many decimal places every finite value can be written with. -/
def decimalPlaces : Nat := 1074

/-- The spacing of a grid: a power of ten. -/
def spacing (j : Nat) : Nat := Nat.pow 10 j

/-- The value of a rank in multiples of `10 ^ -1074`, of which the least positive value has
`5 ^ 1074`. -/
def tenUnits (rank : Nat) : Nat := units rank * Nat.pow 5 decimalPlaces

/-- Whether `n` multiples of `10 ^ -1074` are nearest to the value of this rank. -/
def readsBack (rank n : Nat) : Bool := nearestRank n (spacing decimalPlaces) == rank

/-- The one of two neighbouring factors that reads back, and if both do the lower one only where it
is nearer. -/
def neighbour? (low : Nat) (lowReads highReads lowNearer : Bool) : Option Nat :=
  match lowReads, highReads with
  | true, true => some (if lowNearer then low else low + 1)
  | true, false => some low
  | false, true => some (low + 1)
  | false, false => none

/-- What to print for a rank on a grid, as a factor of its spacing, if a multiple reads back. -/
def onGrid? (rank j : Nat) : Option Nat :=
  let exact := tenUnits rank
  let low := exact / spacing j
  neighbour? low (readsBack rank (low * spacing j)) (readsBack rank ((low + 1) * spacing j))
    (2 * exact < (2 * low + 1) * spacing j)

/-- The first place from the given one downwards at which something is found, behind what is found
there; at place zero it is the given value. -/
def firstFound (found? : Nat → Option Nat) (finest : Nat) : Nat → Nat × Nat
  | 0 => (finest, 0)
  | j + 1 =>
    match found? (j + 1) with
    | some factor => (factor, j + 1)
    | none => firstFound found? finest j

/-- The first grid from the given one downwards with a multiple to print, behind its factor. -/
def coarsest (rank : Nat) : Nat → Nat × Nat := firstFound (onGrid? rank) (tenUnits rank)

/-- A grid at least as coarse as the value itself: since `2 ^ 93 < 10 ^ 28`, a number of `n + 1`
binary digits is below `10 ^ (n * 28 / 93 + 2)`. -/
def firstGrid (rank : Nat) : Nat := (tenUnits rank).log2 * 28 / 93 + 1

/-- The numeral with the fewest digits that reads back to the finite value of a rank. -/
def shortest (rank : Nat) : Numeral :=
  let found := coarsest rank (firstGrid rank)
  .ofScaled (found.1 * spacing (found.2 - decimalPlaces)) (decimalPlaces - found.2)

/-- The number as text, never with an exponent. -/
def display (x : Binary64) : String :=
  if x.isNaN then "NaN"
  else
    let magnitude :=
      if x.rank = infiniteRank then "inf" else String.ofList (shortest x.rank).text
    if x.isNegative then "-" ++ magnitude else magnitude

-- The fewest digits, the larger of two equally near texts, no exponent, and the special values.
example : display ⟨0x3FB999999999999A⟩ = "0.1" := by decide +kernel
example : display ⟨0x3E60000000000000⟩ = "0.000000029802322387695313" := by decide +kernel
example : display ⟨0x4480F0CF064DD592⟩ = "10000000000000000000000" := by decide +kernel
example : display ⟨0x8000000000000000⟩ = "-0" := by decide +kernel
example : display ⟨0x7FF0000000000000⟩ = "inf" := by decide +kernel
example : display ⟨0xFFF0000000000001⟩ = "NaN" := by decide +kernel

end LoxScan.Binary64
