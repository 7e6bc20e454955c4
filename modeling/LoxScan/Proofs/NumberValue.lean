/-
Number tokens have the value of their lexeme.

* `Decimal` — digits, or digits, a point and digits, and the rational number that they denote;
* `Numeral.decimal_text` — a well-formed numeral denotes its fraction;
* `Numeral.rounds_value` — its value is that fraction rounded;
* `Binary64.extended` — the order of values, with infinity on top;
* `NumbersExact` — what it means that the numbers of a scan are exact;
* `scan_numbers_exact` — they are, and the values of two tokens are ordered as their lexemes are.
-/
import LoxScan.Proofs.CursorRun
import LoxScan.Proofs.Rounding
import LoxScan.Proofs.Rows

namespace LoxScan

/-! ### Decimal texts -/

/-- The value of a decimal digit. -/
def digitValue (d : Char) : ℕ := d.toNat - '0'.toNat

/-- The value of digits in front of a point. -/
def wholeValue : List Char → ℚ
  | [] => 0
  | d :: ds => digitValue d * 10 ^ ds.length + wholeValue ds

/-- The value of digits behind a point. -/
def fractionValue : List Char → ℚ
  | [] => 0
  | d :: ds => (digitValue d + fractionValue ds) / 10

/-- The text is a decimal number, and this is the number that it denotes. -/
inductive Decimal : List Char → ℚ → Prop
  | whole {ds : List Char} : ds ≠ [] → (∀ d ∈ ds, d.isDigit = true) → Decimal ds (wholeValue ds)
  | point {ds es : List Char} : ds ≠ [] → es ≠ [] → (∀ d ∈ ds ++ es, d.isDigit = true) →
      Decimal (ds ++ '.' :: es) (wholeValue ds + fractionValue es)

theorem point_not_mem {ds : List Char} (h : ∀ d ∈ ds, d.isDigit = true) : '.' ∉ ds := by
  intro hmem
  exact absurd (h '.' hmem) (by decide)

/-- A text denotes at most one number. -/
theorem Decimal.unique {s : List Char} {p q : ℚ} (hp : Decimal s p) (hq : Decimal s q) : p = q := by
  generalize hs : s = t at hq
  cases hp with
  | whole _ hdigits =>
    cases hq with
    | whole _ _ => rw [hs]
    | point _ _ _ => exact absurd (by rw [hs]; simp) (point_not_mem hdigits)
  | @point ds es _ _ hdigits =>
    have hds := point_not_mem fun d hd => hdigits d (List.mem_append_left es hd)
    cases hq with
    | whole _ hdigits' => exact absurd (by rw [← hs]; simp) (point_not_mem hdigits')
    | @point ds' es' _ _ hdigits' =>
      have hds' := point_not_mem fun d hd => hdigits' d (List.mem_append_left es' hd)
      obtain ⟨rfl, rfl⟩ := append_cons_inj hds hds' hs
      rfl

theorem ofDigitChars_eq_wholeValue (ds : List Char) :
    (Nat.ofDigitChars 10 ds 0 : ℚ) = wholeValue ds := by
  induction ds with
  | nil => rfl
  | cons d ds ih =>
    rw [Nat.ofDigitChars_cons, Nat.ofDigitChars_eq_ofDigitChars_zero, wholeValue, digitValue, ← ih]
    push_cast
    ring

theorem ofDigitChars_eq_fractionValue (ds : List Char) :
    (Nat.ofDigitChars 10 ds 0 : ℚ) = fractionValue ds * 10 ^ ds.length := by
  induction ds with
  | nil => simp [fractionValue]
  | cons d ds ih =>
    rw [Nat.ofDigitChars_cons, Nat.ofDigitChars_eq_ofDigitChars_zero, fractionValue, digitValue,
      List.length_cons, pow_succ]
    push_cast
    rw [ih]
    ring

namespace Numeral

theorem denominator_pos (n : Numeral) : 0 < n.denominator := Nat.pow_pos (by decide)

theorem fraction_eq (n : Numeral) :
    (n.numerator / n.denominator : ℚ) = wholeValue n.whole + fractionValue n.fraction := by
  have hden : (n.denominator : ℚ) = 10 ^ n.fraction.length := by
    rw [denominator, Nat.pow_eq, Nat.cast_pow, Nat.cast_ofNat]
  have hpos : (10 : ℚ) ^ n.fraction.length ≠ 0 := by positivity
  rw [hden, numerator, Nat.ofDigitChars_append, Nat.ofDigitChars_eq_ofDigitChars_zero]
  push_cast
  rw [ofDigitChars_eq_wholeValue, ofDigitChars_eq_fractionValue]
  field_simp

/-- **A well-formed numeral** denotes its fraction. -/
theorem decimal_text {n : Numeral} (hwf : n.WellFormed) :
    Decimal n.text (n.numerator / n.denominator) := by
  obtain ⟨hne, hdigits⟩ := hwf
  rw [fraction_eq, text]
  split
  · next hnil =>
    rw [hnil, fractionValue, add_zero]
    exact .whole hne fun d hd => hdigits d (List.mem_append_left _ hd)
  · next hfraction => exact .point hne hfraction hdigits

/-- **The value of a numeral** is its fraction rounded. -/
theorem rounds_value (n : Numeral) : Binary64.Rounds (n.numerator / n.denominator) n.value :=
  Binary64.rounds_nearestRank n.denominator_pos

end Numeral

/-! ### The order of values -/

namespace Binary64

/-- The value of a number that is not negative, with infinity above all others. -/
def extended (x : Binary64) : WithTop ℚ := if x.IsFinite then (x.toRat : WithTop ℚ) else ⊤

theorem nearestRank_le (num den : ℕ) : nearestRank num den ≤ infiniteRank := min_le_left _ _

theorem isNaN_ofRank {n : ℕ} (h : n ≤ infiniteRank) : (ofRank n).isNaN = false := by
  rw [isNaN, rank_ofRank h, decide_eq_false_iff_not, not_lt]
  exact h

theorem extended_mono {m n : ℕ} (hle : m ≤ n) (hn : n ≤ infiniteRank) :
    (ofRank m).extended ≤ (ofRank n).extended := by
  have hm := hle.trans hn
  have hunits : (units m : ℚ) ≤ units n := by exact_mod_cast units_strictMono.monotone hle
  have hvalue := div_le_div_of_nonneg_right hunits unitsOfOne_pos.le
  rw [extended, extended]
  by_cases hfinite : (ofRank n).IsFinite
  · have hlt := isFinite_iff.mp hfinite
    rw [rank_ofRank hn] at hlt
    have hfinite' : (ofRank m).IsFinite := by
      rw [isFinite_iff, rank_ofRank hm]
      exact lt_of_le_of_lt hle hlt
    rw [if_pos hfinite, if_pos hfinite', WithTop.coe_le_coe, toRat_ofRank hm, toRat_ofRank hn]
    exact hvalue
  · rw [if_neg hfinite]
    exact le_top

end Binary64

/-! ### Number tokens -/

theorem Sign.WellFormed.exists_numeral {g : Sign} (h : g.WellFormed) (hkind : g.kind = .number) :
    ∃ n : Numeral, n.WellFormed ∧ g.lexeme = n.text ∧ g.literal = some (.number n.value) := by
  rw [Sign.WellFormed, hkind] at h
  exact h

/-- Only number tokens have a number as their literal. -/
theorem Sign.WellFormed.kind_eq_number {g : Sign} (h : g.WellFormed) {x : Binary64}
    (hliteral : g.literal = some (.number x)) : g.kind = .number := by
  rw [Sign.WellFormed] at h
  split at h
  · rw [h.2] at hliteral
    cases hliteral
  · rw [h.2] at hliteral
    cases hliteral
  · rw [h.2.2] at hliteral
    cases hliteral
  · next hkind => exact hkind
  · obtain ⟨body, _, _, htext⟩ := h
    rw [htext] at hliteral
    cases hliteral
  · exact h.elim

/-- **A number token** is a numeral with its value. -/
theorem exists_numeral_of_kind {source : String} {t : Token} (ht : t ∈ (scan source).tokens)
    (hkind : t.kind = .number) :
    ∃ n : Numeral, n.WellFormed ∧ t.lexeme.toList = n.text ∧
      t.literal = some (.number n.value) := by
  have hwf : t.sign.WellFormed := wellFormed_of_mem_tokens ht (by simp [hkind])
  exact hwf.exists_numeral hkind

/-- So is every token with a number as its literal. -/
theorem exists_numeral_of_literal {source : String} {t : Token} (ht : t ∈ (scan source).tokens)
    {x : Binary64} (hx : t.literal = some (.number x)) :
    t.kind = .number ∧ ∃ n : Numeral, n.WellFormed ∧ t.lexeme.toList = n.text ∧ x = n.value := by
  have hkind : t.kind = .number := by
    rcases scanned_of_mem_signs (List.mem_map_of_mem ht) with hwf | hend
    · exact hwf.kind_eq_number hx
    · have hnone : t.literal = none := congrArg Sign.literal hend
      rw [hnone] at hx
      cases hx
  obtain ⟨n, hwf, hlexeme, hliteral⟩ := exists_numeral_of_kind ht hkind
  rw [hx, Option.some.injEq, Literal.number.injEq] at hliteral
  exact ⟨hkind, n, hwf, hlexeme, hliteral⟩

/-- The numbers of a scan are exact. -/
structure NumbersExact (source : String) : Prop where
  /-- Every numeral can be read. -/
  all_readable : ∀ d ∈ (scan source).diagnostics, ∀ text, d.fault ≠ .unreadableNumber text
  /-- So it is at every moment of the scan by byte offsets, which has a branch for those that cannot
  be read. -/
  cursor_reads : ∀ n m, (Cursor.atStart source).run? n = some m → m.ReadsNumerals
  /-- The lexeme of a number token denotes a number, and its literal is that number rounded. -/
  number_token : ∀ t ∈ (scan source).tokens, t.kind = .number →
    ∃ q x, Decimal t.lexeme.toList q ∧ t.literal = some (.number x) ∧ Binary64.Rounds q x
  /-- No other token has a number, and every number has a value and no sign. -/
  number_literal : ∀ t ∈ (scan source).tokens, ∀ x, t.literal = some (.number x) →
    t.kind = .number ∧ x.isNaN = false ∧ x.isNegative = false

theorem numbersExact (source : String) : NumbersExact source where
  all_readable := by
    intro d hd text
    exact fault_ne_unreadableNumber hd text
  cursor_reads _ _ h := Cursor.readsNumerals_of_run? h
  number_token := by
    intro t ht hkind
    obtain ⟨n, hwf, hlexeme, hliteral⟩ := exists_numeral_of_kind ht hkind
    refine ⟨_, _, ?_, hliteral, n.rounds_value⟩
    rw [hlexeme]
    exact Numeral.decimal_text hwf
  number_literal := by
    intro t ht x hx
    obtain ⟨hkind, n, _, _, rfl⟩ := exists_numeral_of_literal ht hx
    have hrank := Binary64.nearestRank_le n.numerator n.denominator
    exact ⟨hkind, Binary64.isNaN_ofRank hrank, Binary64.isNegative_ofRank hrank⟩

/-- **Numbers are exact**: every number token of every source has the value of its lexeme, rounded
to the nearest binary64 number.  So lexemes for the same number have the same bits, in whatever
sources they stand, and a lexeme for a greater number has no smaller value. -/
theorem scan_numbers_exact :
    (∀ source, NumbersExact source) ∧
      ∀ source other, ∀ t ∈ (scan source).tokens, ∀ u ∈ (scan other).tokens, ∀ p q x y,
        Decimal t.lexeme.toList p → Decimal u.lexeme.toList q →
        t.literal = some (.number x) → u.literal = some (.number y) →
          (p = q → x.bits = y.bits) ∧ (p ≤ q → x.extended ≤ y.extended) := by
  refine ⟨numbersExact, ?_⟩
  intro source other t ht u hu p q x y hp hq hx hy
  obtain ⟨_, n, hn, htext, rfl⟩ := exists_numeral_of_literal ht hx
  obtain ⟨_, m, hm, hutext, rfl⟩ := exists_numeral_of_literal hu hy
  rw [htext] at hp
  rw [hutext] at hq
  obtain rfl := hp.unique (Numeral.decimal_text hn)
  obtain rfl := hq.unique (Numeral.decimal_text hm)
  constructor
  · intro heq
    rw [Numeral.value, Numeral.value,
      Binary64.nearestRank_congr n.denominator_pos m.denominator_pos heq]
  · intro hle
    exact Binary64.extended_mono
      (Binary64.nearestRank_mono n.denominator_pos m.denominator_pos hle)
      (Binary64.nearestRank_le _ _)

/-- The middle between two neighbours goes to the even one, and anything above it to the other. -/
theorem numbers_exact_at_tie :
    NumbersExact "9007199254740993" ∧
      (scan "9007199254740993").tokens.map Token.literal =
        [some (.number ⟨0x4340000000000000⟩), none] ∧
      (scan "9007199254740993.00000000000000000000000000000000000000000000000001").tokens.map
          Token.literal =
        [some (.number ⟨0x4340000000000001⟩), none] :=
  ⟨scan_numbers_exact.1 _, by decide +kernel, by decide +kernel⟩

end LoxScan
