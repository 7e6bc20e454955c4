/-
The text of a number is a source for that number.

* `Numeral.fraction_ofScaled` — a scaled integer is written as the numeral that denotes it;
* `Binary64.readsBack_coarsest` — what the search for the fewest digits finds reads back;
* `Binary64.value_shortest` — so a printed numeral has the value that it was printed for;
* `SingleToken` — a source that is one token;
* `scan_display` — the text of a number in a scan is such a source, and its value is the number.

Design notes: what reads back depends only on the rational number that a numeral denotes.  So the
zeros that are dropped at the end and the grid that is chosen matter nowhere but in the proof that
this number stays the same.
-/
import LoxScan.Proofs.Ending
import LoxScan.Proofs.NumberValue

namespace LoxScan

/-! ### Scaled integers -/

/-- A power of ten keeps the zeros in front of a smaller number. -/
theorem toDigits_pow_add {places r : ℕ} (hr : r < 10 ^ places) :
    ∃ ds, Nat.toDigits 10 (10 ^ places + r) = '1' :: ds ∧ ds.length = places := by
  induction places generalizing r with
  | zero =>
    obtain rfl : r = 0 := by omega
    exact ⟨[], rfl, rfl⟩
  | succ places ih =>
    rw [pow_succ] at hr
    have hpos : 0 < 10 ^ places := by positivity
    obtain ⟨ds, hdigits, hlength⟩ := ih (r := r / 10) (by omega)
    have hsplit : 10 ^ (places + 1) + r = 10 * (10 ^ places + r / 10) + r % 10 := by
      rw [pow_succ]
      omega
    have hlast : r % 10 < 10 := Nat.mod_lt r (by omega)
    rw [hsplit, ← Nat.toDigits_append_toDigits (by omega) (by omega) hlast, hdigits,
      Nat.toDigits_of_lt_base hlast, List.cons_append]
    exact ⟨_, rfl, by rw [List.length_append, hlength, List.length_singleton]⟩

theorem wholeValue_toDigits (n : ℕ) : wholeValue (Nat.toDigits 10 n) = n := by
  rw [← ofDigitChars_eq_wholeValue, Nat.ofDigitChars_ten_toDigits]

theorem fractionValue_tail_toDigits {places r : ℕ} (hr : r < 10 ^ places) :
    fractionValue (Nat.toDigits 10 (10 ^ places + r)).tail = r / 10 ^ places := by
  obtain ⟨ds, hdigits, hlength⟩ := toDigits_pow_add hr
  have hpos : (10 : ℚ) ^ places ≠ 0 := by positivity
  have hone : (digitValue '1' : ℚ) = 1 := by
    rw [show digitValue '1' = 1 from rfl, Nat.cast_one]
  have hwhole := wholeValue_toDigits (10 ^ places + r)
  rw [hdigits, wholeValue, ← ofDigitChars_eq_wholeValue, ofDigitChars_eq_fractionValue, hlength,
    hone] at hwhole
  rw [hdigits, List.tail_cons, eq_div_iff hpos]
  push_cast at hwhole
  linarith

theorem fractionValue_zeros {zeros : List Char} (hzeros : ∀ d ∈ zeros, d = '0') :
    fractionValue zeros = 0 := by
  induction zeros with
  | nil => rfl
  | cons d zeros ih =>
    obtain ⟨rfl, hrest⟩ := List.forall_mem_cons.mp hzeros
    rw [fractionValue, ih hrest, show digitValue '0' = 0 from rfl, Nat.cast_zero, add_zero, zero_div]

/-- Zeros at the end do not matter behind a point. -/
theorem fractionValue_append_zeros (ds : List Char) {zeros : List Char}
    (hzeros : ∀ d ∈ zeros, d = '0') : fractionValue (ds ++ zeros) = fractionValue ds := by
  induction ds with
  | nil => exact fractionValue_zeros hzeros
  | cons d ds ih => rw [List.cons_append, fractionValue, ih, fractionValue]

theorem fractionValue_dropEndWhile (ds : List Char) :
    fractionValue (dropEndWhile (· == '0') ds) = fractionValue ds := by
  have hzeros : ∀ d ∈ ds.rtakeWhile (· == '0'), d = '0' := by
    intro d hd
    simpa using List.mem_rtakeWhile_imp hd
  rw [← fractionValue_append_zeros _ hzeros, dropEndWhile_eq_rdropWhile,
    List.rdropWhile_append_rtakeWhile]

namespace Numeral

theorem wellFormed_ofScaled (n places : ℕ) : (ofScaled n places).WellFormed := by
  refine ⟨Nat.toDigits_ne_nil, fun d hd => ?_⟩
  rcases List.mem_append.mp hd with hwhole | hfraction
  · exact Nat.isDigit_of_mem_toDigits (by omega) le_rfl hwhole
  · have hmem : d ∈ (Nat.toDigits 10 (10 ^ places + n % 10 ^ places)).tail :=
      (List.rdropWhile_prefix _ _).mem hfraction
    exact Nat.isDigit_of_mem_toDigits (by omega) le_rfl (List.mem_of_mem_tail hmem)

/-- **A scaled integer** is written as the numeral that denotes it. -/
theorem fraction_ofScaled (n places : ℕ) :
    ((ofScaled n places).numerator / (ofScaled n places).denominator : ℚ) = n / 10 ^ places := by
  have hpos : 0 < 10 ^ places := by positivity
  have hdivision : (n : ℚ) = 10 ^ places * (n / 10 ^ places : ℕ) + (n % 10 ^ places : ℕ) := by
    exact_mod_cast (Nat.div_add_mod n (10 ^ places)).symm
  rw [fraction_eq]
  show wholeValue (Nat.toDigits 10 (n / 10 ^ places)) +
    fractionValue (dropEndWhile (· == '0')
      (Nat.toDigits 10 (10 ^ places + n % 10 ^ places)).tail) = n / 10 ^ places
  rw [wholeValue_toDigits, fractionValue_dropEndWhile,
    fractionValue_tail_toDigits (Nat.mod_lt n hpos), eq_div_iff (by positivity), hdivision]
  field_simp

end Numeral

/-! ### The fewest digits -/

namespace Binary64

theorem spacing_pos (j : ℕ) : 0 < spacing j := Nat.pow_pos (by omega)

theorem cast_spacing (j : ℕ) : (spacing j : ℚ) = 10 ^ j := by
  rw [spacing, Nat.pow_eq, Nat.cast_pow, Nat.cast_ofNat]

theorem cast_tenUnits (rank : ℕ) :
    (tenUnits rank : ℚ) / spacing decimalPlaces * unitsOfOne = units rank := by
  rw [tenUnits, cast_spacing, cast_unitsOfOne]
  unfold decimalPlaces
  -- the powers are too large to be evaluated
  generalize 1074 = n
  rw [Nat.pow_eq, show (10 : ℚ) = 2 * 5 by norm_num, mul_pow]
  push_cast
  field_simp

/-- The exact value reads back. -/
theorem readsBack_tenUnits {rank : ℕ} (h : rank ≤ infiniteRank) :
    readsBack rank (tenUnits rank) = true := by
  rw [readsBack, beq_iff_eq]
  exact nearestRank_of_units (spacing_pos decimalPlaces) h (cast_tenUnits rank)

theorem neighbour?_eq_some {low factor : ℕ} {lowReads highReads lowNearer : Bool}
    (h : neighbour? low lowReads highReads lowNearer = some factor) :
    factor = low ∧ lowReads = true ∨ factor = low + 1 ∧ highReads = true := by
  unfold neighbour? at h
  split at h
  · have hfactor := Option.some.inj h
    split at hfactor
    · exact Or.inl ⟨hfactor.symm, rfl⟩
    · exact Or.inr ⟨hfactor.symm, rfl⟩
  · exact Or.inl ⟨(Option.some.inj h).symm, rfl⟩
  · exact Or.inr ⟨(Option.some.inj h).symm, rfl⟩
  · exact absurd h (Option.some_ne_none factor).symm

/-- So does what is found on a grid. -/
theorem readsBack_onGrid? {rank j factor : ℕ} (h : onGrid? rank j = some factor) :
    readsBack rank (factor * spacing j) = true := by
  unfold onGrid? at h
  rcases neighbour?_eq_some h with ⟨hfactor, hreads⟩ | ⟨hfactor, hreads⟩
  · rw [hfactor]
    exact hreads
  · rw [hfactor]
    exact hreads

/-- What is found has every property that the value at place zero and all places have. -/
theorem firstFound_spec {found? : ℕ → Option ℕ} {finest : ℕ} {P : ℕ → ℕ → Prop}
    (hfinest : P finest 0) (hfound : ∀ factor j, found? j = some factor → P factor j) (j : ℕ) :
    P (firstFound found? finest j).1 (firstFound found? finest j).2 := by
  induction j with
  | zero => exact hfinest
  | succ j ih =>
    rw [firstFound]
    split
    · next factor hfactor => exact hfound factor (j + 1) hfactor
    · exact ih

/-- **The search finds what reads back.** -/
theorem readsBack_coarsest {rank : ℕ} (h : rank ≤ infiniteRank) (j : ℕ) :
    readsBack rank ((coarsest rank j).1 * spacing (coarsest rank j).2) = true := by
  have hfinest : readsBack rank (tenUnits rank * spacing 0) = true := by
    rw [show spacing 0 = 1 from rfl, mul_one]
    exact readsBack_tenUnits h
  rw [coarsest]
  exact firstFound_spec (P := fun factor j => readsBack rank (factor * spacing j) = true) hfinest
    (fun _ _ => readsBack_onGrid?) j

/-- Whatever the grid, the numeral for a multiple of its spacing denotes that multiple. -/
theorem value_ofScaled_spacing (factor j places : ℕ) :
    (Numeral.ofScaled (factor * spacing (j - places)) (places - j)).value =
      ofRank (nearestRank (factor * spacing j) (spacing places)) := by
  rw [Numeral.value]
  refine congrArg ofRank (nearestRank_congr (Numeral.denominator_pos _) (spacing_pos places) ?_)
  rw [Numeral.fraction_ofScaled]
  push_cast
  rw [cast_spacing, cast_spacing, cast_spacing]
  rcases Nat.le_total j places with hle | hle
  · obtain ⟨k, rfl⟩ := Nat.exists_eq_add_of_le hle
    rw [Nat.sub_eq_zero_of_le hle, Nat.add_sub_cancel_left, pow_add]
    field_simp
  · obtain ⟨k, rfl⟩ := Nat.exists_eq_add_of_le hle
    rw [Nat.sub_eq_zero_of_le hle, Nat.add_sub_cancel_left, pow_add]
    field_simp

theorem wellFormed_shortest (rank : ℕ) : (shortest rank).WellFormed :=
  Numeral.wellFormed_ofScaled _ _

/-- **A printed numeral** has the value that it was printed for. -/
theorem value_shortest {rank : ℕ} (h : rank ≤ infiniteRank) :
    (shortest rank).value = ofRank rank := by
  have hreads := readsBack_coarsest h (firstGrid rank)
  rw [readsBack, beq_iff_eq] at hreads
  unfold shortest
  rw [value_ofScaled_spacing, hreads]

theorem display_ofRank {rank : ℕ} (h : rank < infiniteRank) :
    (ofRank rank).display = String.ofList (shortest rank).text := by
  rw [display, isNaN_ofRank h.le, isNegative_ofRank h.le, rank_ofRank h.le, if_neg h.ne,
    if_neg Bool.false_ne_true]
  exact if_neg Bool.false_ne_true

theorem display_infinity : infinity.display = "inf" := by decide +kernel

end Binary64

/-! ### Numbers as sources -/

/-- The source is a single token, on the first line. -/
structure SingleToken (source : String) (kind : Kind) (literal : Option Literal) : Prop where
  tokens : (scan source).tokens = [⟨kind, source, literal, 1⟩, Token.endOfInput 1]
  diagnostics : (scan source).diagnostics = []

/-- An element without newlines that denotes a token is such a source. -/
theorem singleToken {e : Element} {g : Sign} (hwf : e.WellFormed) (hg : e.Denotes g)
    (hline : '\n' ∉ e.text) : SingleToken (String.ofList e.text) g.kind g.literal := by
  have hcut : cut e.text = [e] := by
    have happend := cut_text_append hwf (Element.endsBefore_nil hwf)
    rwa [List.append_nil, cut_nil] at happend
  have hfirst : lineBehind [] = 1 := rfl
  have hlast : lineBehind e.text = 1 := by
    rw [lineBehind, List.count_eq_zero.mpr hline]
    rfl
  have hevents : eventsFrom (lineBehind []) [e] = [.token (g.onLine 1)] := by
    rw [eventsFrom, hg.event?, hfirst]
    rfl
  constructor
  · rw [scan_tokens, String.toList_ofList, hcut, hevents, hlast, ← hg.lexeme_eq]
    rfl
  · rw [scan_diagnostics, String.toList_ofList, hcut, hevents]
    rfl

theorem Numeral.newline_not_mem_text {n : Numeral} (hwf : n.WellFormed) : '\n' ∉ n.text := by
  intro hmem
  rcases eq_point_or_isDigit hwf hmem with hpoint | hdigit
  · exact absurd hpoint (by decide)
  · exact absurd hdigit (by decide)

/-- A finite number that is not negative is printed as a source for itself. -/
theorem singleToken_display {rank : ℕ} (h : rank < Binary64.infiniteRank) :
    SingleToken (Binary64.ofRank rank).display .number (some (.number (Binary64.ofRank rank))) := by
  have hwf := Binary64.wellFormed_shortest rank
  have hsource := singleToken (e := .number (Binary64.shortest rank)) hwf (.number _)
    (Numeral.newline_not_mem_text hwf)
  rw [Binary64.value_shortest h.le] at hsource
  rw [Binary64.display_ofRank h]
  exact hsource

theorem singleToken_inf : SingleToken "inf" .identifier none :=
  ⟨by decide +kernel, by decide +kernel⟩

/-- **The text of a number is a source for that number**: what is displayed for the literal of a
number token is read as a number token with the same bits, and so it is displayed again as the same
text.  Only for an infinite literal the text is a word. -/
theorem scan_display {source : String} {t : Token} (ht : t ∈ (scan source).tokens)
    (hkind : t.kind = .number) :
    ∃ x : Binary64, t.literal = some (.number x) ∧
      (x.IsFinite → ∃ y : Binary64,
        SingleToken (Literal.number x).display .number (some (.number y)) ∧ y.bits = x.bits ∧
          (Literal.number y).display = (Literal.number x).display) ∧
      (¬ x.IsFinite →
        (Literal.number x).display = "inf" ∧ SingleToken "inf" .identifier none) := by
  obtain ⟨n, _, _, hliteral⟩ := exists_numeral_of_kind ht hkind
  obtain ⟨rank, hrank⟩ : ∃ rank, Binary64.nearestRank n.numerator n.denominator = rank := ⟨_, rfl⟩
  have hle : rank ≤ Binary64.infiniteRank := hrank ▸ Binary64.nearestRank_le _ _
  rw [Numeral.value, hrank] at hliteral
  refine ⟨_, hliteral, fun hfinite => ?_, fun hinfinite => ?_⟩
  · rw [Binary64.isFinite_iff, Binary64.rank_ofRank hle] at hfinite
    exact ⟨_, singleToken_display hfinite, rfl, rfl⟩
  · rw [Binary64.isFinite_iff, Binary64.rank_ofRank hle, not_lt] at hinfinite
    obtain rfl := Nat.le_antisymm hle hinfinite
    exact ⟨Binary64.display_infinity, singleToken_inf⟩

/-- Zeros at the end are displayed no more, and the shorter text has the same value. -/
theorem scan_display_tenth :
    ∃ x : Binary64, ⟨.number, "0.10", some (.number x), 1⟩ ∈ (scan "0.10").tokens ∧ x.IsFinite ∧
      SingleToken "0.1" .number (some (.number x)) := by
  obtain ⟨x, hx⟩ : ∃ x : Binary64, x = ⟨0x3FB999999999999A⟩ := ⟨_, rfl⟩
  have htokens : (scan "0.10").tokens =
      [⟨.number, "0.10", some (.number x), 1⟩, Token.endOfInput 1] := by
    rw [hx]
    decide +kernel
  have hmem : ⟨.number, "0.10", some (.number x), 1⟩ ∈ (scan "0.10").tokens := by
    rw [htokens]
    exact List.mem_cons_self
  have hfinite : x.IsFinite := by
    rw [hx]
    decide
  have hdisplay : (Literal.number x).display = "0.1" := by
    rw [hx]
    decide +kernel
  obtain ⟨z, hliteral, hsource, _⟩ := scan_display hmem rfl
  obtain rfl : x = z := Literal.number.inj (Option.some.inj hliteral)
  obtain ⟨y, htoken, hbits, _⟩ := hsource hfinite
  obtain rfl : y = x := congrArg Binary64.mk hbits
  rw [hdisplay] at htoken
  exact ⟨_, hmem, hfinite, htoken⟩

end LoxScan
