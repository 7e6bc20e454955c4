/-
Rounding a fraction to a binary64 number.

* `NearestRank.lt_infiniteRank_iff` — where infinity begins;
* `NearestRank.eq_zero` — where zero ends;
* `Binary64.NearestFinite` — a finite number of which no other one is nearer to a fraction, ties to
  even;
* `Binary64.Rounds` — what it means that a number is a fraction rounded;
* `rounds_nearestRank` — the number of the computed rank is.
-/
import LoxScan.Proofs.NearestRank

namespace LoxScan.Binary64

/-! ### The middle between two ranks -/

namespace NearestRank

variable {q : ℚ} {r i : ℕ}

theorem le_of_lt_middle (h : NearestRank q r) (hq : 2 * q < units i + units (i + 1)) : r ≤ i := by
  by_contra hlt
  have hle := h.le_of_lt (not_le.mp hlt)
  have hunits : (units (i + 1) : ℚ) ≤ units r := by
    exact_mod_cast units_strictMono.monotone (not_le.mp hlt)
  linarith

theorem lt_of_middle_lt (h : NearestRank q r) (hq : units i + units (i + 1) < 2 * q) : i < r := by
  by_contra hle
  have hge := h.le_of_gt (Nat.lt_succ_of_le (not_lt.mp hle))
  have hunits : (units r : ℚ) ≤ units i := by
    exact_mod_cast units_strictMono.monotone (not_lt.mp hle)
  linarith

/-- In the middle between two ranks the nearest one is the even one of them. -/
theorem even_of_middle (h : NearestRank q r) (hq : 2 * q = units i + units (i + 1)) :
    (r = i ∨ r = i + 1) ∧ Even r := by
  have hsame : |q - units i| = |q - units (i + 1)| := by
    rw [← abs_neg]
    congr 1
    linarith
  rcases lt_trichotomy r i with hlt | rfl | hlt
  · have hle := h.le_of_gt (Nat.lt_succ_of_lt hlt)
    have hunits : (units r : ℚ) < units i := by exact_mod_cast units_strictMono hlt
    linarith
  · exact ⟨Or.inl rfl, h.even (r + 1) (Nat.succ_ne_self r) hsame.symm⟩
  · rcases Nat.lt_or_eq_of_le hlt with hnext | rfl
    · have hle := h.le_of_lt hlt
      have hunits : (units (i + 1) : ℚ) < units r := by exact_mod_cast units_strictMono hnext
      linarith
    · exact ⟨Or.inr rfl, h.even i (Nat.succ_ne_self i).symm hsame⟩

end NearestRank

/-! ### Infinity and zero -/

/-- Half a spacing above the largest finite number. -/
def overflow : ℚ := 2 ^ 1024 - 2 ^ 970

/-- Half of the least positive number. -/
def underflow : ℚ := 2 ^ (-1075 : ℤ)

theorem unitsOfOne_pos : (0 : ℚ) < unitsOfOne := by
  rw [cast_unitsOfOne]
  positivity

/-- The last rank of a binade and the first one of the next binade. -/
theorem units_binade_step (e : ℕ) :
    (units ((e + 2) * binade - 1) + units ((e + 2) * binade) : ℚ) = (2 ^ 54 - 1) * 2 ^ e := by
  have hlast : (e + 2) * binade - 1 = (e + 1) * binade + (binade - 1) := by
    rw [binade_eq]
    omega
  have hfirst : (e + 2) * binade = (e + 1 + 1) * binade + 0 := by ring
  rw [hlast, hfirst, units_of_le (by decide), units_of_le (by decide), binade_eq]
  push_cast
  ring

theorem two_mul_overflow :
    2 * (overflow * unitsOfOne) = units (infiniteRank - 1) + units infiniteRank := by
  have hlast : infiniteRank = (2045 + 2) * binade := rfl
  have hlarge : (2 : ℚ) ^ 1024 = 2 ^ 54 * 2 ^ 970 := by rw [← pow_add]
  have hspacing : (2 : ℚ) ^ 2045 = 2 * 2 ^ 970 * 2 ^ 1074 := by rw [← pow_succ', ← pow_add]
  rw [hlast, units_binade_step, overflow, cast_unitsOfOne, hlarge, hspacing]
  generalize (2 : ℚ) ^ 970 = b
  generalize (2 : ℚ) ^ 1074 = u
  ring

theorem two_mul_underflow : 2 * (underflow * unitsOfOne) = units 0 + units (0 + 1) := by
  have hzero : units 0 = 0 := rfl
  have hone : units (0 + 1) = 1 := rfl
  have hleast : (2 : ℚ) * (2 ^ (-1075 : ℤ) * 2 ^ 1074) = 1 := by
    rw [← zpow_natCast, ← zpow_add₀ two_ne_zero, ← zpow_one_add₀ two_ne_zero]
    rfl
  rw [hzero, hone, underflow, cast_unitsOfOne, hleast, Nat.cast_zero, Nat.cast_one, zero_add]

/-- **Infinity** is the nearest rank from half a spacing above the largest finite value on. -/
theorem NearestRank.lt_infiniteRank_iff {q : ℚ} {r : ℕ} (h : NearestRank (q * unitsOfOne) r) :
    r < infiniteRank ↔ q < overflow := by
  obtain ⟨i, hi, hodd⟩ : ∃ i, infiniteRank = i + 1 ∧ ¬ Even i := ⟨infiniteRank - 1, by decide⟩
  have hmiddle := two_mul_overflow
  rw [hi, Nat.add_sub_cancel] at hmiddle
  rw [hi, Nat.lt_succ_iff, ← mul_lt_mul_iff_left₀ unitsOfOne_pos]
  rcases lt_trichotomy (q * unitsOfOne) (overflow * unitsOfOne) with hlt | heq | hgt
  · exact iff_of_true (h.le_of_lt_middle (by linarith)) hlt
  · -- the last finite rank is odd, so the middle belongs to infinity
    obtain ⟨hr, heven⟩ := h.even_of_middle (by rw [heq, hmiddle])
    rcases hr with rfl | rfl
    · exact absurd heven hodd
    · exact iff_of_false (Nat.not_succ_le_self i) heq.not_lt
  · exact iff_of_false (not_le.mpr (h.lt_of_middle_lt (by linarith))) hgt.not_gt

/-- Up to half of the least positive value, **zero** is the nearest rank. -/
theorem NearestRank.eq_zero {q : ℚ} {r : ℕ} (h : NearestRank (q * unitsOfOne) r)
    (hq : q ≤ underflow) : r = 0 := by
  have hmiddle := two_mul_underflow
  have hscaled := mul_le_mul_of_nonneg_right hq unitsOfOne_pos.le
  rcases hscaled.lt_or_eq with hlt | heq
  · exact Nat.le_zero.mp (h.le_of_lt_middle (by linarith))
  · obtain ⟨rfl | rfl, heven⟩ := h.even_of_middle (by rw [heq, hmiddle])
    · rfl
    · exact absurd heven (by decide)

/-! ### Numbers -/

/-- Infinity without a sign. -/
def infinity : Binary64 := ⟨0x7FF0000000000000⟩

/-- Zero without a sign. -/
def zero : Binary64 := ⟨0⟩

/-- The number is finite and no other one is nearer to `q`; if another value is as near, the
fraction of this one is even. -/
structure NearestFinite (q : ℚ) (x : Binary64) : Prop where
  finite : x.IsFinite
  nearest : ∀ y : Binary64, y.IsFinite → |q - x.toRat| ≤ |q - y.toRat|
  even_of_tie : ∀ y : Binary64, y.IsFinite → y.toRat ≠ x.toRat →
    |q - y.toRat| = |q - x.toRat| → Even x.fraction

/-- The number is `q` rounded: the nearest one, and infinity from half a spacing above the largest
finite number on. -/
structure Rounds (q : ℚ) (x : Binary64) : Prop where
  eq_infinity : overflow ≤ q → x = infinity
  nearest : q < overflow → NearestFinite q x
  eq_zero : q ≤ underflow → x = zero

section

variable {n : ℕ}

theorem toNat_ofRank (h : n ≤ infiniteRank) : (ofRank n).bits.toNat = n :=
  UInt64.toNat_ofNat_of_lt' (lt_of_le_of_lt h (by decide))

theorem isNegative_ofRank (h : n ≤ infiniteRank) : (ofRank n).isNegative = false := by
  have hsign : infiniteRank < signBit := by decide
  rw [isNegative, toNat_ofRank h, decide_eq_false_iff_not, not_le]
  exact lt_of_le_of_lt h hsign

theorem rank_ofRank (h : n ≤ infiniteRank) : (ofRank n).rank = n := by
  have hsign : infiniteRank < signBit := by decide
  rw [rank, toNat_ofRank h]
  exact Nat.mod_eq_of_lt (lt_of_le_of_lt h hsign)

theorem toRat_ofRank (h : n ≤ infiniteRank) : (ofRank n).toRat = units n / unitsOfOne := by
  rw [toRat, isNegative_ofRank h, magnitude_eq, rank_ofRank h]
  rfl

end

/-- A finite number has the value of a rank, or it is below zero. -/
theorem toRat_eq_units_or_neg (x : Binary64) :
    (∃ n, x.toRat = units n / unitsOfOne) ∨ x.toRat < 0 := by
  rw [toRat, magnitude_eq]
  split
  · rcases Nat.eq_zero_or_pos (units x.rank) with hzero | hpos
    · refine Or.inl ⟨x.rank, ?_⟩
      rw [hzero, Nat.cast_zero, zero_div, neg_zero]
    · have hvalue : (0 : ℚ) < units x.rank / unitsOfOne :=
        div_pos (by exact_mod_cast hpos) unitsOfOne_pos
      exact Or.inr (by linarith)
  · exact Or.inl ⟨_, rfl⟩

theorem abs_sub_units {q : ℚ} (n : ℕ) :
    |q * unitsOfOne - units n| = unitsOfOne * |q - units n / unitsOfOne| := by
  have hpos := unitsOfOne_pos
  generalize (unitsOfOne : ℚ) = one at hpos
  have hscaled : q * one - units n = one * (q - units n / one) := by
    field_simp
  rw [hscaled, abs_mul, abs_of_pos hpos]

/-- The nearest rank is that of the nearest number. -/
theorem NearestRank.nearestFinite {q : ℚ} {r : ℕ} (h : NearestRank (q * unitsOfOne) r)
    (hq : 0 ≤ q) (hr : r < infiniteRank) : NearestFinite q (ofRank r) := by
  have hpos := unitsOfOne_pos
  have hvalue := toRat_ofRank hr.le
  have hle : ∀ k, |q - units r / unitsOfOne| ≤ |q - units k / unitsOfOne| := by
    intro k
    have hscaled := h.le k
    rwa [abs_sub_units, abs_sub_units, mul_le_mul_iff_right₀ hpos] at hscaled
  -- zero is nearer than all that is below it
  have hneg : ∀ y : Binary64, y.toRat < 0 → |q - units r / unitsOfOne| < |q - y.toRat| := by
    intro y hy
    have hzero := hle 0
    rw [show units 0 = 0 from rfl, Nat.cast_zero, zero_div, sub_zero, abs_of_nonneg hq] at hzero
    rw [abs_of_nonneg (by linarith : 0 ≤ q - y.toRat)]
    linarith
  constructor
  · rw [isFinite_iff, rank_ofRank hr.le]
    exact hr
  · intro y _
    rw [hvalue]
    rcases y.toRat_eq_units_or_neg with ⟨k, hk⟩ | hy
    · rw [hk]
      exact hle k
    · exact (hneg y hy).le
  · intro y _ hne htie
    rw [hvalue] at hne htie
    rcases y.toRat_eq_units_or_neg with ⟨k, hk⟩ | hy
    · rw [hk] at hne htie
      have heven := h.even k (fun heq => hne (by rw [heq])) (by
        rw [abs_sub_units, abs_sub_units, htie])
      rw [← rank_ofRank hr.le, rank_eq] at heven
      exact (even_rank_iff _ _).mp heven
    · exact absurd htie (hneg y hy).ne'

/-- **The computed number is the fraction rounded** to the nearest one, ties to even. -/
theorem rounds_nearestRank {num den : ℕ} (hden : 0 < den) :
    Rounds (num / den) (ofRank (nearestRank num den)) := by
  obtain ⟨r, hr, hrank⟩ := @exists_nearestRank num den hden
  have hq : (0 : ℚ) ≤ num / den := by positivity
  rw [hrank]
  refine ⟨fun hlarge => ?_, fun hsmall => ?_, fun htiny => ?_⟩
  · have hge : infiniteRank ≤ r := by
      rw [← not_lt, hr.lt_infiniteRank_iff, not_lt]
      exact hlarge
    rw [min_eq_left hge]
    rfl
  · have hlt := hr.lt_infiniteRank_iff.mpr hsmall
    rw [min_eq_right hlt.le]
    exact hr.nearestFinite hq hlt
  · rw [hr.eq_zero htiny]
    rfl

end LoxScan.Binary64
