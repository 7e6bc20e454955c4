/-
The binary64 value nearest to a fraction.

* `roundHalfEven_nearest` — no integer is nearer to a quotient than the rounded one;
* `NearestRank` — a rank of which no other one is nearer to a value, and which is even at a tie;
* `NearestRank.mono`, `NearestRank.unique` — greater values have greater nearest ranks, and there
  is only one;
* `exists_nearestRank` — that rank, cut off at infinity, is what `nearestRank` computes;
* `nearestRank_of_units` — the value of a rank gives the rank back;
* `nearestRank_mono`, `nearestRank_congr` — only the value of the fraction matters to it.

Design notes: ranks go on behind infinity as if exponents had no bound, with infinity standing for
the value `2 ^ 1024`.  So a nearest rank always exists, and that infinity begins half a spacing above
the largest finite value is a fact about two neighbouring ranks like all others.
-/
import Mathlib.Data.Nat.Cast.Order.Field
import Mathlib.Tactic.Linarith
import LoxScan.Proofs.Binary64

namespace LoxScan

/-! ### Distances -/

/-- Of two numbers the smaller one is nearer up to the middle between them. -/
theorem abs_sub_le_abs_sub_iff_of_lt {a b q : ℚ} (h : a < b) :
    |q - a| ≤ |q - b| ↔ 2 * q ≤ a + b := by
  rw [← sq_le_sq]
  constructor
  · intro hsq
    nlinarith
  · intro hq
    nlinarith

/-- Of two numbers the greater one is nearer from the middle between them on. -/
theorem abs_sub_le_abs_sub_iff_of_gt {a b q : ℚ} (h : b < a) :
    |q - a| ≤ |q - b| ↔ a + b ≤ 2 * q := by
  rw [← sq_le_sq]
  constructor
  · intro hsq
    nlinarith
  · intro hq
    nlinarith

/-! ### Quotients -/

theorem roundHalfEven_bounds (num den : ℕ) :
    num / den ≤ roundHalfEven num den ∧ roundHalfEven num den ≤ num / den + 1 := by
  rw [roundHalfEven]
  split <;> omega

section

variable {num den : ℕ} (hden : 0 < den)

include hden

theorem roundHalfEven_error :
    |(num / den : ℚ) - roundHalfEven num den| ≤ 1 / 2 ∧
      (|(num / den : ℚ) - roundHalfEven num den| = 1 / 2 → Even (roundHalfEven num den)) := by
  have hden' : (0 : ℚ) < den := by exact_mod_cast hden
  obtain ⟨k, t, hk, ht⟩ : ∃ k t, num / den = k ∧ num % den = t := ⟨_, _, rfl, rfl⟩
  have hnum : (num : ℚ) = den * k + t := by
    rw [← hk, ← ht]
    exact_mod_cast (Nat.div_add_mod num den).symm
  have hq : (num / den : ℚ) = k + t / den := by
    rw [hnum]
    field_simp
  have hnonneg : (0 : ℚ) ≤ t / den := by positivity
  have hlt : (t : ℚ) / den < 1 := by
    rw [div_lt_one hden', ← ht]
    exact_mod_cast Nat.mod_lt num hden
  have hhalf : 2 * t < den ↔ (t : ℚ) / den < 1 / 2 := by
    rw [div_lt_div_iff₀ hden' two_pos, one_mul, mul_comm]
    exact_mod_cast Iff.rfl
  have htie : 2 * t = den ↔ (t : ℚ) / den = 1 / 2 := by
    rw [div_eq_div_iff hden'.ne' two_ne_zero, one_mul, mul_comm]
    exact_mod_cast Iff.rfl
  rw [roundHalfEven, hk, ht, hq]
  split
  · next hdown =>
    rw [hhalf, htie] at hdown
    rw [add_sub_cancel_left, abs_of_nonneg hnonneg]
    rcases hdown with hless | ⟨heq, heven⟩
    · exact ⟨hless.le, fun h => absurd h hless.ne⟩
    · exact ⟨heq.le, fun _ => Nat.even_iff.mpr heven⟩
  · next hup =>
    rw [hhalf, htie, not_or, not_and, not_lt] at hup
    obtain ⟨hge, hodd⟩ := hup
    have herror : (k : ℚ) + t / den - (k + 1 : ℕ) = -(1 - t / den) := by
      push_cast
      ring
    rw [herror, abs_neg, abs_of_nonneg (by linarith)]
    refine ⟨by linarith, fun heq => ?_⟩
    have hparity : k % 2 = 1 := Nat.mod_two_ne_zero.mp (hodd (by linarith))
    exact Nat.even_iff.mpr (by omega)

/-- **No integer is nearer** to a quotient than the rounded one, which is even at a tie. -/
theorem roundHalfEven_nearest (k : ℕ) :
    |(num / den : ℚ) - roundHalfEven num den| ≤ |(num / den : ℚ) - k| ∧
      (k ≠ roundHalfEven num den →
        |(num / den : ℚ) - k| = |(num / den : ℚ) - roundHalfEven num den| →
          Even (roundHalfEven num den)) := by
  obtain ⟨herror, heven⟩ := @roundHalfEven_error num den hden
  generalize roundHalfEven num den = m at *
  by_cases hk : k = m
  · rw [hk]
    exact ⟨le_refl _, fun h => absurd rfl h⟩
  · -- two integers are at least one apart, so at most one of them is nearer than a half
    have hapart : (1 : ℚ) ≤ |(m : ℚ) - k| := by
      have hne : (m : ℤ) - k ≠ 0 := by omega
      exact_mod_cast Int.one_le_abs hne
    have htriangle := abs_sub_le (m : ℚ) (num / den) k
    rw [abs_sub_comm (m : ℚ) (num / den)] at htriangle
    exact ⟨by linarith, fun _ htie => heven (by linarith)⟩

end

namespace Binary64

/-! ### Nearest ranks -/

/-- No other rank is nearer to `q` units, and if another one is as near, this one is even. -/
structure NearestRank (q : ℚ) (r : ℕ) : Prop where
  le : ∀ k, |q - units r| ≤ |q - units k|
  even : ∀ k, k ≠ r → |q - units k| = |q - units r| → Even r

namespace NearestRank

theorem le_of_lt {q : ℚ} {r k : ℕ} (h : NearestRank q r) (hlt : k < r) :
    (units r + units k : ℚ) ≤ 2 * q := by
  have hunits : (units k : ℚ) < units r := by exact_mod_cast units_strictMono hlt
  exact (abs_sub_le_abs_sub_iff_of_gt hunits).mp (h.le k)

theorem le_of_gt {q : ℚ} {r k : ℕ} (h : NearestRank q r) (hlt : r < k) :
    2 * q ≤ (units r + units k : ℚ) := by
  have hunits : (units r : ℚ) < units k := by exact_mod_cast units_strictMono hlt
  exact (abs_sub_le_abs_sub_iff_of_lt hunits).mp (h.le k)

/-- **Greater values have greater nearest ranks.** -/
theorem mono {p q : ℚ} {r k : ℕ} (hr : NearestRank p r) (hk : NearestRank q k) (hle : p ≤ q) :
    r ≤ k := by
  by_contra hlt
  rw [not_le] at hlt
  have hlow := hr.le_of_lt hlt
  have hhigh := hk.le_of_gt hlt
  -- both values are the middle between the two ranks, so these are even and not neighbours
  obtain rfl : p = q := by linarith
  have hsame := le_antisymm (hr.le k) (hk.le r)
  have hreven := Nat.even_iff.mp (hr.even k hlt.ne hsame.symm)
  have hkeven := Nat.even_iff.mp (hk.even r hlt.ne' hsame)
  have hnext : k + 1 < r := by omega
  have hunits : (units (k + 1) : ℚ) < units r := by exact_mod_cast units_strictMono hnext
  have hbetween := hk.le_of_gt (Nat.lt_succ_self k)
  linarith

/-- **There is only one nearest rank.** -/
theorem unique {q : ℚ} {r k : ℕ} (hr : NearestRank q r) (hk : NearestRank q k) : r = k :=
  le_antisymm (hr.mono hk le_rfl) (hk.mono hr le_rfl)

/-- A rank is the nearest one to its own value. -/
theorem of_units (r : ℕ) : NearestRank (units r) r := by
  constructor
  · intro k
    rw [sub_self, abs_zero]
    exact abs_nonneg _
  · intro k hne htie
    rw [sub_self, abs_zero, abs_eq_zero, sub_eq_zero, Nat.cast_inj] at htie
    exact absurd (units_strictMono.injective htie) hne.symm

end NearestRank

/-! ### Rounding in a binade -/

section

variable {num den s : ℕ} (hden : 0 < den) (hlow : s = 0 ∨ binade * 2 ^ s ≤ num / den)
  (hhigh : num / den < 2 * binade * 2 ^ s)

include hlow hhigh in
/-- The value of the rank that is computed from the rounded significand. -/
theorem units_rounded :
    units (s * binade + roundHalfEven num (den * 2 ^ s)) =
      roundHalfEven num (den * 2 ^ s) * 2 ^ s := by
  have hpos : 0 < 2 ^ s := by positivity
  obtain ⟨hfloor, hceil⟩ := roundHalfEven_bounds num (den * 2 ^ s)
  rw [← Nat.div_div_eq_div_mul] at hfloor hceil
  have hlt : num / den / 2 ^ s < 2 * binade := (Nat.div_lt_iff_lt_mul hpos).mpr hhigh
  refine units_add (by omega) (hlow.imp_right fun hle => ?_)
  exact ((Nat.le_div_iff_mul_le hpos).mpr hle).trans hfloor

include hden in
theorem abs_sub_grid (j : ℕ) :
    |(num / den : ℚ) - (j * 2 ^ s : ℕ)| = 2 ^ s * |(num / (den * 2 ^ s : ℕ) : ℚ) - j| := by
  have hpos : (0 : ℚ) < 2 ^ s := by positivity
  have hden' : (den : ℚ) ≠ 0 := by exact_mod_cast hden.ne'
  rw [← abs_of_pos hpos, ← abs_mul]
  congr 1
  push_cast
  field_simp

include hden in
/-- No multiple of the spacing is nearer than the one with the rounded significand. -/
theorem rounded_le_grid (j : ℕ) :
    |(num / den : ℚ) - (roundHalfEven num (den * 2 ^ s) * 2 ^ s : ℕ)| ≤
      |(num / den : ℚ) - (j * 2 ^ s : ℕ)| := by
  rw [abs_sub_grid hden, abs_sub_grid hden]
  exact mul_le_mul_of_nonneg_left (roundHalfEven_nearest (by positivity) j).1 (by positivity)

include hden hlow in
/-- A value is a multiple of the spacing, or it lies below the binade and is not nearest. -/
theorem grid_or_farther (k : ℕ) :
    (∃ j, units k = j * 2 ^ s) ∨
      |(num / den : ℚ) - (roundHalfEven num (den * 2 ^ s) * 2 ^ s : ℕ)| <
        |(num / den : ℚ) - units k| := by
  by_cases hk : s = 0 ∨ (s + 1) * binade ≤ k
  · obtain ⟨j, hj⟩ := pow_dvd_units hk
    exact Or.inl ⟨j, by rw [hj, mul_comm]⟩
  · rw [not_or, not_le] at hk
    have hfirst : units k < binade * 2 ^ s := by
      have hlt := units_strictMono hk.2
      rwa [← Nat.add_zero ((s + 1) * binade), units_of_le (by decide)] at hlt
    have hvalue : (units k : ℚ) < (binade * 2 ^ s : ℕ) := by exact_mod_cast hfirst
    have hle : ((binade * 2 ^ s : ℕ) : ℚ) ≤ num / den := by
      have hfloor : ((num / den : ℕ) : ℚ) ≤ num / den := Nat.cast_div_le
      exact le_trans (by exact_mod_cast hlow.resolve_left hk.1) hfloor
    -- the first value of the binade stands between
    have hbinade := @rounded_le_grid num den s hden binade
    rw [abs_of_nonneg (sub_nonneg.mpr hle)] at hbinade
    refine Or.inr (lt_of_le_of_lt hbinade ?_)
    rw [abs_of_nonneg (sub_nonneg.mpr (hvalue.le.trans hle))]
    linarith

include hden hlow hhigh in
/-- **Rounding the significand** in the binade of a value gives its nearest rank. -/
theorem nearestRank_rounded :
    NearestRank (num / den) (s * binade + roundHalfEven num (den * 2 ^ s)) := by
  have hunits := units_rounded hlow hhigh
  constructor
  · intro k
    rw [hunits]
    rcases grid_or_farther hden hlow k with ⟨j, hj⟩ | hfarther
    · rw [hj]
      exact rounded_le_grid hden j
    · exact hfarther.le
  · intro k hne htie
    rw [hunits] at htie
    rw [even_rank_iff]
    rcases grid_or_farther hden hlow k with ⟨j, hj⟩ | hfarther
    · have hother : j ≠ roundHalfEven num (den * 2 ^ s) := by
        intro heq
        rw [heq, ← hunits] at hj
        exact hne (units_strictMono.injective hj)
      rw [hj, abs_sub_grid hden, abs_sub_grid hden] at htie
      have hscale : (2 : ℚ) ^ s ≠ 0 := by positivity
      exact (roundHalfEven_nearest (by positivity) j).2 hother (mul_left_cancel₀ hscale htie)
    · exact absurd htie hfarther.ne'

end

/-- The shift by which a quotient is brought into the range of a significand. -/
theorem shift_bounds (n : ℕ) :
    (n.log2 - fractionBits = 0 ∨ binade * 2 ^ (n.log2 - fractionBits) ≤ n) ∧
      n < 2 * binade * 2 ^ (n.log2 - fractionBits) := by
  have hbits : fractionBits = 52 := rfl
  constructor
  · by_cases hlarge : n.log2 ≤ fractionBits
    · exact Or.inl (Nat.sub_eq_zero_of_le hlarge)
    · have hne : n ≠ 0 := by
        rintro rfl
        exact hlarge (by simp)
      have hsplit : fractionBits + (n.log2 - fractionBits) = n.log2 := by omega
      have hself := Nat.log2_self_le hne
      rw [← hsplit, pow_add] at hself
      exact Or.inr hself
  · have hself : n < 2 ^ (n.log2 + 1) := Nat.lt_log2_self
    have hle : 2 ^ (n.log2 + 1) ≤ 2 ^ (1 + fractionBits + (n.log2 - fractionBits)) :=
      Nat.pow_le_pow_right two_pos (by omega)
    rw [pow_add, pow_add] at hle
    exact lt_of_lt_of_le hself hle

/-- **The computed rank** is the nearest one, cut off at infinity. -/
theorem exists_nearestRank {num den : ℕ} (hden : 0 < den) :
    ∃ r, NearestRank (num / den * unitsOfOne) r ∧ nearestRank num den = min infiniteRank r := by
  obtain ⟨hlow, hhigh⟩ := shift_bounds (num * unitsOfOne / den)
  have hscaled : (num / den * unitsOfOne : ℚ) = (num * unitsOfOne : ℕ) / den := by
    push_cast
    ring
  rw [hscaled]
  exact ⟨_, nearestRank_rounded hden hlow hhigh, rfl⟩

/-- A rank is computed from its own value. -/
theorem nearestRank_of_units {num den rank : ℕ} (hden : 0 < den) (hrank : rank ≤ infiniteRank)
    (heq : (num / den * unitsOfOne : ℚ) = units rank) : nearestRank num den = rank := by
  obtain ⟨r, hr, hnearest⟩ := @exists_nearestRank num den hden
  rw [heq] at hr
  rw [hnearest, hr.unique (.of_units rank), min_eq_right hrank]

section

variable {num den num' den' : ℕ} (hden : 0 < den) (hden' : 0 < den')

include hden hden'

/-- **A greater fraction** has no smaller rank. -/
theorem nearestRank_mono (hle : (num / den : ℚ) ≤ num' / den') :
    nearestRank num den ≤ nearestRank num' den' := by
  obtain ⟨r, hr, hrank⟩ := @exists_nearestRank num den hden
  obtain ⟨k, hk, hrank'⟩ := @exists_nearestRank num' den' hden'
  have hscaled := mul_le_mul_of_nonneg_right hle (Nat.cast_nonneg (α := ℚ) unitsOfOne)
  rw [hrank, hrank']
  exact min_le_min_left _ (hr.mono hk hscaled)

/-- Equal fractions have equal ranks. -/
theorem nearestRank_congr (heq : (num / den : ℚ) = num' / den') :
    nearestRank num den = nearestRank num' den' :=
  le_antisymm (nearestRank_mono hden hden' heq.le) (nearestRank_mono hden' hden heq.ge)

end

end Binary64

end LoxScan
