/-
Sets of code points given as tables of closed ranges.

* `Ranges.contains` — whether some range of the table holds a code point;
* `Ranges.contains_iff` — the same, as a statement about the table.

Design notes: a Unicode property is a table of a few hundred ranges.  A walk through the whole table
is fast enough for source text, and it asks nothing of the order of the ranges.
-/
namespace LoxScan.Unicode

/-- A set of code points: closed ranges `(first, last)`. -/
abbrev Ranges := List (Nat × Nat)

namespace Ranges

/-- Whether some range holds `n`. -/
def contains (rs : Ranges) (n : Nat) : Bool :=
  rs.any fun (first, last) => first ≤ n && n ≤ last

theorem contains_iff {rs : Ranges} {n : Nat} :
    rs.contains n = true ↔ ∃ r ∈ rs, r.1 ≤ n ∧ n ≤ r.2 := by
  simp [contains]

theorem contains_append (rs ts : Ranges) (n : Nat) :
    Ranges.contains (rs ++ ts) n = (rs.contains n || ts.contains n) := by
  simp [contains]

end Ranges

end LoxScan.Unicode
