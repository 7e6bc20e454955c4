/-
What the bits of a binary64 number mean.

* `Binary64.exponent`, `Binary64.fraction` — the fields behind the sign bit;
* `Binary64.toRat` — the exact value of a finite number, by the formula of the format;
* `Binary64.units_strictMono` — of two ranks the greater one has the greater value;
* `Binary64.magnitude_eq` — the value by the formula is the value of the rank.

Design notes: a rank is split as `s * binade + m` with a significand `m` that is at least `binade`
unless `s` is zero.  In this form the two cases of the definition of `units` become one product,
and the carry from the largest significand to the next binade needs no case of its own.
-/
import Mathlib.Algebra.Order.Field.Basic
import Mathlib.Data.Rat.Cast.Order
import Mathlib.Tactic.FieldSimp
import Mathlib.Tactic.NormNum
import Mathlib.Tactic.Positivity
import Mathlib.Tactic.Ring
import LoxScan.Number.Nearest

namespace LoxScan.Binary64

/-! ### Fields -/

/-- The field of the exponent: eleven bits behind the sign. -/
def exponent (x : Binary64) : ℕ := x.bits.toNat / 2 ^ 52 % 2 ^ 11

/-- The field of the fraction: the last fifty-two bits. -/
def fraction (x : Binary64) : ℕ := x.bits.toNat % 2 ^ 52

/-- The number is neither infinite nor without a value. -/
def IsFinite (x : Binary64) : Prop := x.exponent < 2047

instance (x : Binary64) : Decidable x.IsFinite := inferInstanceAs (Decidable (_ < _))

/-- The absolute value of a finite number.  The least exponent stands for numbers without the
leading one in front of the fraction. -/
def magnitude (x : Binary64) : ℚ :=
  if x.exponent = 0 then x.fraction / 2 ^ 52 * 2 ^ (-1022 : ℤ)
  else (1 + x.fraction / 2 ^ 52) * 2 ^ ((x.exponent : ℤ) - 1023)

/-- The value of a finite number. -/
def toRat (x : Binary64) : ℚ := if x.isNegative then -x.magnitude else x.magnitude

theorem binade_eq : binade = 2 ^ 52 := rfl

theorem fraction_lt (x : Binary64) : x.fraction < binade := Nat.mod_lt _ (by decide)

theorem rank_eq (x : Binary64) : x.rank = x.exponent * binade + x.fraction := by
  have hsign : signBit = 2 ^ 63 := rfl
  rw [rank, exponent, fraction, hsign, binade_eq]
  omega

theorem isFinite_iff {x : Binary64} : x.IsFinite ↔ x.rank < infiniteRank := by
  have hlt := x.fraction_lt
  rw [IsFinite, rank_eq, infiniteRank]
  rw [binade_eq] at *
  omega

/-! ### Ranks -/

theorem units_of_lt {n : ℕ} (h : n < binade) : units n = n := by
  rw [units, if_pos h]

theorem units_of_le {e f : ℕ} (hf : f < binade) :
    units ((e + 1) * binade + f) = (binade + f) * 2 ^ e := by
  have hsplit : ((e + 1) * binade + f) / binade = e + 1 ∧ ((e + 1) * binade + f) % binade = f :=
    (Nat.div_mod_unique (by decide)).mpr ⟨by ring, hf⟩
  have hle : ¬ (e + 1) * binade + f < binade := by
    rw [binade_eq]
    omega
  rw [units, if_neg hle, hsplit.1, hsplit.2, Nat.add_sub_cancel]
  rfl

/-- The value of a significand in a binade, which may be the first one of the next binade. -/
theorem units_add {s m : ℕ} (hm : m ≤ 2 * binade) (hs : s = 0 ∨ binade ≤ m) :
    units (s * binade + m) = m * 2 ^ s := by
  rcases Nat.lt_or_ge m binade with hlt | hge
  · obtain rfl : s = 0 := by omega
    rw [Nat.zero_mul, Nat.zero_add, units_of_lt hlt, pow_zero, mul_one]
  · obtain ⟨f, rfl⟩ := Nat.exists_eq_add_of_le hge
    rcases Nat.lt_or_ge f binade with hf | hf
    · have hsame : s * binade + (binade + f) = (s + 1) * binade + f := by ring
      rw [hsame, units_of_le hf]
    · obtain rfl : f = binade := by omega
      have hcarry : s * binade + (binade + binade) = (s + 1 + 1) * binade + 0 := by ring
      rw [hcarry, units_of_le (by decide), pow_succ]
      ring

theorem exists_significand (n : ℕ) :
    ∃ s m, n = s * binade + m ∧ m < 2 * binade ∧ (s = 0 ∨ binade ≤ m) := by
  have hdivision := Nat.div_add_mod' n binade
  have hlt : n % binade < binade := Nat.mod_lt _ (by decide)
  rcases Nat.eq_zero_or_pos (n / binade) with hzero | hpos
  · rw [hzero] at hdivision
    exact ⟨0, n, by omega, by omega, Or.inl rfl⟩
  · obtain ⟨s, hs⟩ := Nat.exists_eq_add_of_lt hpos
    rw [hs, Nat.zero_add, Nat.add_one_mul] at hdivision
    exact ⟨s, binade + n % binade, by omega, by omega, Or.inr (by omega)⟩

/-- **Greater ranks have greater values.** -/
theorem units_strictMono : StrictMono units := by
  refine strictMono_nat_of_lt_succ fun n => ?_
  obtain ⟨s, m, rfl, hm, hs⟩ := exists_significand n
  rw [units_add (by omega) hs, Nat.add_assoc, units_add (by omega) (by omega)]
  exact Nat.mul_lt_mul_of_pos_right (Nat.lt_succ_self m) (by positivity)

/-- From a binade on the values are multiples of its spacing. -/
theorem pow_dvd_units {s n : ℕ} (h : s = 0 ∨ (s + 1) * binade ≤ n) : 2 ^ s ∣ units n := by
  rcases h with rfl | h
  · exact one_dvd _
  · obtain ⟨t, m, rfl, hm, ht⟩ := exists_significand n
    have hst : s ≤ t := by
      by_contra hlt
      have hsucc : (t + 1) * binade ≤ s * binade := Nat.mul_le_mul_right _ (by omega)
      rw [Nat.add_one_mul] at h hsucc
      omega
    rw [units_add (by omega) ht]
    exact (pow_dvd_pow 2 hst).mul_left m

theorem even_rank_iff (s m : ℕ) : Even (s * binade + m) ↔ Even m := by
  have hbinade : Even (s * binade) := (by decide : Even binade).mul_left s
  rw [Nat.even_add]
  exact ⟨fun h => h.mp hbinade, iff_of_true hbinade⟩

/-! ### Values -/

theorem cast_unitsOfOne : (unitsOfOne : ℚ) = 2 ^ 1074 := by
  unfold unitsOfOne
  -- the power is too large to be evaluated
  generalize 1074 = n
  rw [Nat.pow_eq, Nat.cast_pow, Nat.cast_ofNat]

/-- **The formula of the format** gives the value of the rank. -/
theorem magnitude_eq (x : Binary64) : x.magnitude = units x.rank / unitsOfOne := by
  have hunit : (2 : ℚ) ^ 1074 = 2 ^ 52 * 2 ^ 1022 := by rw [← pow_add]
  have hleast : (2 : ℚ) ^ (-1022 : ℤ) = (2 ^ 1022)⁻¹ := by rw [zpow_neg]; rfl
  rw [magnitude, rank_eq, cast_unitsOfOne, hunit]
  rcases Nat.eq_zero_or_pos x.exponent with hzero | hpos
  · rw [if_pos hzero, hzero, Nat.zero_mul, Nat.zero_add, units_of_lt x.fraction_lt, hleast]
    field_simp
  · obtain ⟨e, he⟩ := Nat.exists_eq_add_of_lt hpos
    rw [Nat.zero_add] at he
    have hscale : (2 : ℚ) ^ (((e + 1 : ℕ) : ℤ) - 1023) = 2 ^ e / 2 ^ 1022 := by
      have hsplit : ((e + 1 : ℕ) : ℤ) - 1023 = e + -1022 := by
        push_cast
        ring
      rw [hsplit, zpow_add₀ two_ne_zero, hleast, zpow_natCast]
      rfl
    rw [if_neg hpos.ne', he, units_of_le x.fraction_lt, hscale, binade_eq]
    push_cast
    field_simp
    norm_num

end LoxScan.Binary64
