/-
Signs written out one behind the other.

* `Spaced`, `layout` — signs with separators in front of them, and the text that they make;
* `Sign.RunsInto` — a sign that is followed at once by something that changes how it is read;
* `Fuses` — such a sign occurs;
* `Element.endsBefore_layout_iff` — an element ends before a layout if its sign does not run into
  it.

Design notes: the rule speaks of kinds only, apart from the point in a number.  What links it to the
characters is `Kind.lead`: the first character of a well-formed sign is of the class that belongs to
its kind, so the kinds of the signs that follow say all that the reading of an element depends on.
-/
import LoxScan.Proofs.Spelling

namespace LoxScan

/-! ### The rule -/

/-- Consists of spaces, tabs, carriage returns and newlines. -/
def IsSeparator (w : List Char) : Prop := ∀ c ∈ w, c = ' ' ∨ c = '\t' ∨ c = '\r' ∨ c = '\n'

/-- A sign and what stands in front of it. -/
structure Spaced where
  gap : List Char
  sign : Sign
  deriving DecidableEq

/-- A well-formed sign behind a separator. -/
structure Spaced.WellFormed (i : Spaced) : Prop where
  gap : IsSeparator i.gap
  sign : i.sign.WellFormed

/-- The text of spaced signs, with `last` behind the last one. -/
def layout (items : List Spaced) (last : List Char) : List Char :=
  items.flatMap (fun i => i.gap ++ i.sign.lexeme) ++ last

/-- Whether the kind is that of a word. -/
def Kind.isWord : Kind → Bool
  | identifier | keyword _ => true
  | _ => false

/-- A token of the first kind swallows the beginning of one of the second kind. -/
def Kind.MergesWith (k l : Kind) : Prop :=
  k.isWord = true ∧ (l.isWord = true ∨ l = .number) ∨
  k = .number ∧ l = .number ∨
  k ∈ [.mark .not, .mark .assignment, .mark .less, .mark .greater] ∧
    l ∈ [.mark .assignment, .mark .equals] ∨
  k = .mark .slash ∧ l = .mark .slash

/-- The sign is followed at once by one with which it merges, or it is a number without a point,
followed at once by a dot and that by a number. -/
def Sign.RunsInto (g : Sign) : List Spaced → Prop
  | ⟨[], h⟩ :: rest =>
    g.kind.MergesWith h.kind ∨
      g.kind = .number ∧ '.' ∉ g.lexeme ∧ h.kind = .mark .dot ∧
        ∃ k after, rest = ⟨[], k⟩ :: after ∧ k.kind = .number
  | _ => False

/-- Some sign runs into what follows it. -/
def Fuses (items : List Spaced) : Prop :=
  ∃ before i after, items = before ++ i :: after ∧ i.sign.RunsInto after

theorem not_fuses_nil : ¬ Fuses [] := by
  rintro ⟨before, i, after, h, _⟩
  exact absurd h (by simp)

theorem fuses_cons_iff {i : Spaced} {items : List Spaced} :
    Fuses (i :: items) ↔ i.sign.RunsInto items ∨ Fuses items := by
  constructor
  · rintro ⟨before, j, after, h, hruns⟩
    cases before with
    | nil =>
      cases h
      exact Or.inl hruns
    | cons k before =>
      cases h
      exact Or.inr ⟨before, j, after, rfl, hruns⟩
  · rintro (hruns | ⟨before, j, after, rfl, hruns⟩)
    · exact ⟨[], i, items, rfl, hruns⟩
    · exact ⟨i :: before, j, after, rfl, hruns⟩

/-! ### First characters -/

/-- The mark of the first character of a mark. -/
def Mark.base : Mark → Mark
  | notEquals => not
  | equals => assignment
  | lessEquals => less
  | greaterEquals => greater
  | m => m

theorem Mark.text_eq_cons (m : Mark) : ∃ c s, m.text = c :: s ∧ ofChar? c = some m.base := by
  cases m <;> exact ⟨_, _, rfl, rfl⟩

/-- The class of the first character of a token of the kind. -/
def Kind.lead : Kind → Lead
  | mark m => .mark m.base
  | identifier | keyword _ => .letter
  | string => .quote
  | number => .digit
  | endOfInput => .stray

/-- **A well-formed sign begins** with a character of the class of its kind. -/
theorem Sign.WellFormed.lexeme_eq_cons {g : Sign} (h : g.WellFormed) :
    ∃ c s, g.lexeme = c :: s ∧ Lead.of c = g.kind.lead := by
  obtain ⟨e, hwf, hg⟩ := Sign.wellFormed_iff.mp h
  cases hg with
  | mark m =>
    obtain ⟨c, s, htext, hc⟩ := m.text_eq_cons
    exact ⟨c, s, htext, Lead.of_ofChar? hc⟩
  | keyword k =>
    obtain ⟨c, s, htext, hc, _⟩ := hwf
    exact ⟨c, s, htext, Lead.of_isAlphabetic hc⟩
  | identifier _ =>
    obtain ⟨c, s, rfl, hc, _⟩ := hwf
    exact ⟨c, s, rfl, Lead.of_isAlphabetic hc⟩
  | number n =>
    obtain ⟨c, s, htext⟩ := List.exists_cons_of_ne_nil (Numeral.text_ne_nil hwf)
    exact ⟨c, s, htext, Lead.of_isDigit (Numeral.isDigit_of_text_eq_cons hwf htext)⟩
  | string body => exact ⟨_, _, rfl, Lead.of_quote⟩

theorem Sign.WellFormed.eq_nil_of_dot {g : Sign} (h : g.WellFormed) (hdot : g.kind = .mark .dot)
    {c : Char} {s : List Char} (hc : g.lexeme = c :: s) : s = [] := by
  rw [Sign.WellFormed, hdot] at h
  rw [h.1] at hc
  exact (List.cons.inj hc).2.symm

theorem IsSeparator.lead_of_mem {w : List Char} (h : IsSeparator w) {c : Char} (hc : c ∈ w) :
    Lead.of c = .blank ∨ Lead.of c = .newline := by
  rcases h c hc with rfl | rfl | rfl | rfl
  · exact Or.inl rfl
  · exact Or.inl rfl
  · exact Or.inl rfl
  · exact Or.inr rfl

/-! ### The rule and the reading of elements -/

theorem eq_char_iff {c d : Char} {m : Mark} {k : Kind} (h : Lead.of c = k.lead)
    (hd : m.text = [d]) : c = d ↔ k.lead = .mark m := by
  rw [← h, Lead.of_eq_mark_iff, hd]
  simp [eq_comm]

theorem eq_equals_iff {c : Char} {k : Kind} (h : Lead.of c = k.lead) :
    c = '=' ↔ k ∈ [.mark .assignment, .mark .equals] := by
  rw [eq_char_iff h (m := .assignment) rfl]
  cases k with
  | mark m => cases m <;> simp [Kind.lead, Mark.base]
  | _ => simp [Kind.lead]

theorem eq_slash_iff {c : Char} {k : Kind} (h : Lead.of c = k.lead) :
    c = '/' ↔ k = .mark .slash := by
  rw [eq_char_iff h (m := .slash) rfl]
  cases k with
  | mark m => cases m <;> simp [Kind.lead, Mark.base]
  | _ => simp [Kind.lead]

theorem eq_point_iff {c : Char} {k : Kind} (h : Lead.of c = k.lead) :
    c = '.' ↔ k = .mark .dot := by
  rw [eq_char_iff h (m := .dot) rfl]
  cases k with
  | mark m => cases m <;> simp [Kind.lead, Mark.base]
  | _ => simp [Kind.lead]

theorem Mark.isSome_withEquals?_iff {m : Mark} :
    m.withEquals?.isSome = true ↔
      Kind.mark m ∈ [.mark not, .mark assignment, .mark less, .mark greater] := by
  cases m <;> simp [withEquals?]

theorem Mark.growsBy_iff {m : Mark} {c : Char} {k : Kind} (h : Lead.of c = k.lead) :
    m.GrowsBy c ↔ (Kind.mark m).MergesWith k := by
  rw [Mark.GrowsBy, eq_equals_iff h, eq_slash_iff h, Mark.isSome_withEquals?_iff, Kind.MergesWith,
    Kind.mark.injEq, and_comm, and_comm (b := m = slash)]
  simp [Kind.isWord]

theorem isWordCharacter_iff {c : Char} {k : Kind} (h : Lead.of c = k.lead) :
    isWordCharacter c = true ↔ k.isWord = true ∨ k = .number := by
  rw [isWordCharacter, Bool.or_eq_true, ← Lead.of_eq_letter_iff, ← Lead.of_eq_digit_iff, h]
  cases k <;> simp [Kind.lead, Kind.isWord]

theorem isDigit_iff {c : Char} {k : Kind} (h : Lead.of c = k.lead) :
    c.isDigit = true ↔ k = .number := by
  rw [← Lead.of_eq_digit_iff, h]
  cases k <;> simp [Kind.lead]

theorem Numeral.point_mem_text_iff {n : Numeral} (hwf : n.WellFormed) :
    '.' ∈ n.text ↔ n.fraction ≠ [] := by
  obtain ⟨whole, fraction⟩ := n
  have hwhole : '.' ∉ whole := fun hmem =>
    absurd (hwf.2 '.' (List.mem_append_left _ hmem)) (by decide)
  cases fraction <;> simp [text, hwhole]

theorem layout_cons (i : Spaced) (items : List Spaced) (last : List Char) :
    layout (i :: items) last = i.gap ++ (i.sign.lexeme ++ layout items last) := by
  simp [layout]

/-- No element goes on in a separator, except a comment, and that is no token. -/
theorem Element.Denotes.endsBefore_of_lead {e : Element} {g : Sign} (hg : e.Denotes g)
    {rest : List Char} (h : ∀ c ∈ rest.head?, Lead.of c = .blank ∨ Lead.of c = .newline) :
    e.EndsBefore rest := by
  have hdigit : ∀ c ∈ rest.head?, c.isDigit = false := by
    intro c hc
    rw [Bool.eq_false_iff, ne_eq, ← Lead.of_eq_digit_iff]
    rcases h c hc with hlead | hlead <;> simp [hlead]
  have hletter : ∀ c ∈ rest.head?, Unicode.isAlphabetic c = false := by
    intro c hc
    rw [Bool.eq_false_iff, ne_eq, ← Lead.of_eq_letter_iff]
    rcases h c hc with hlead | hlead <;> simp [hlead]
  have hword : ∀ c ∈ rest.head?, isWordCharacter c = false := fun c hc => by
    rw [isWordCharacter, hletter c hc, hdigit c hc, Bool.or_self]
  have hmark : ∀ c ∈ rest.head?, ∀ m : Mark, m.text ≠ [c] := by
    intro c hc m hm
    rw [← Lead.of_eq_mark_iff] at hm
    rcases h c hc with hlead | hlead <;> rw [hlead] at hm <;> cases hm
  cases hg with
  | mark m =>
    intro c hc
    rintro (⟨rfl, _⟩ | ⟨rfl, _⟩)
    · exact hmark '=' hc .assignment rfl
    · exact hmark '/' hc .slash rfl
  | keyword k => exact hword
  | identifier _ => exact hword
  | number n =>
    refine ⟨hdigit, fun _ d after hrest => ?_⟩
    subst hrest
    exact absurd rfl (hmark '.' rfl .dot)
  | string body => exact trivial

/-- A layout begins with a separator, or it is empty, or with its first sign. -/
theorem layout_cases {items : List Spaced} {last : List Char}
    (hitems : ∀ i ∈ items, i.WellFormed) (hlast : IsSeparator last) :
    (∀ c ∈ (layout items last).head?, Lead.of c = .blank ∨ Lead.of c = .newline) ∧
        (∀ h rest, items ≠ ⟨[], h⟩ :: rest) ∨
      ∃ h rest, items = ⟨[], h⟩ :: rest := by
  -- no sign, a sign without a gap in front of it, and a sign with one
  rcases items with _ | ⟨⟨_ | ⟨d, w⟩, h⟩, rest⟩
  · refine Or.inl ⟨fun c hc => hlast.lead_of_mem (List.mem_of_mem_head? hc), ?_⟩
    simp
  · exact Or.inr ⟨h, rest, rfl⟩
  · refine Or.inl ⟨fun c hc => ?_, by simp⟩
    cases hc
    exact (hitems _ List.mem_cons_self).gap.lead_of_mem List.mem_cons_self

/-- A layout that begins with a sign begins with the first character of it. -/
theorem layout_eq_cons {h : Sign} (hh : h.WellFormed) (rest : List Spaced) (last : List Char) :
    ∃ c s, h.lexeme = c :: s ∧ Lead.of c = h.kind.lead ∧
      layout (⟨[], h⟩ :: rest) last = c :: (s ++ layout rest last) := by
  obtain ⟨c, s, hc, hlead⟩ := hh.lexeme_eq_cons
  refine ⟨c, s, hc, hlead, ?_⟩
  rw [layout_cons, hc]
  rfl

/-- A layout begins with a digit if it begins with a number. -/
theorem layout_eq_digit_cons_iff {items : List Spaced} {last : List Char}
    (hitems : ∀ i ∈ items, i.WellFormed) (hlast : IsSeparator last) :
    (∃ d after, layout items last = d :: after ∧ d.isDigit = true) ↔
      ∃ k after, items = ⟨[], k⟩ :: after ∧ k.kind = .number := by
  rcases layout_cases hitems hlast with ⟨hlead, hfirst⟩ | ⟨h, rest, rfl⟩
  · constructor
    · rintro ⟨d, after, htext, hd⟩
      rw [htext] at hlead
      rw [← Lead.of_eq_digit_iff] at hd
      rcases hlead d rfl with h | h <;> rw [hd] at h <;> cases h
    · rintro ⟨k, after, hitem, _⟩
      exact absurd hitem (hfirst k after)
  · obtain ⟨c, s, _, hlead, htext⟩ := layout_eq_cons (hitems _ List.mem_cons_self).sign rest last
    rw [htext]
    constructor
    · rintro ⟨d, after, heq, hd⟩
      cases heq
      exact ⟨h, rest, rfl, (isDigit_iff hlead).mp hd⟩
    · rintro ⟨k, after, heq, hk⟩
      cases heq
      exact ⟨c, _, rfl, (isDigit_iff hlead).mpr hk⟩

/-- A digit goes on with a number, and a point and a digit go on with one that has no point. -/
theorem Numeral.endsBefore_cons_iff {n : Numeral} (hwf : n.WellFormed) {c : Char} {s : List Char} :
    n.EndsBefore (c :: s) ↔
      ¬ (c.isDigit = true ∨
        '.' ∉ n.text ∧ c = '.' ∧ ∃ d after, s = d :: after ∧ d.isDigit = true) := by
  rw [Numeral.point_mem_text_iff hwf, not_or, EndsBefore]
  refine and_congr (by simp) ?_
  constructor
  · rintro hpoint ⟨hnil, rfl, d, after, rfl, hd⟩
    rw [hpoint (by simpa using hnil) d after rfl] at hd
    exact absurd hd (by simp)
  · intro hnot hnil d after heq
    cases heq
    rw [Bool.eq_false_iff]
    exact fun hd => hnot ⟨by simp [hnil], rfl, d, after, rfl, hd⟩

/-- **An element ends before a layout** if its sign does not run into it. -/
theorem Element.endsBefore_layout_iff {e : Element} {g : Sign} {items : List Spaced}
    {last : List Char} (hwf : e.WellFormed) (hg : e.Denotes g)
    (hitems : ∀ i ∈ items, i.WellFormed) (hlast : IsSeparator last) :
    e.EndsBefore (layout items last) ↔ ¬ g.RunsInto items := by
  rcases layout_cases hitems hlast with ⟨hlead, hfirst⟩ | ⟨h, rest, rfl⟩
  · refine iff_of_true (hg.endsBefore_of_lead hlead) fun hruns => ?_
    unfold Sign.RunsInto at hruns
    split at hruns
    · exact hfirst _ _ rfl
    · exact hruns
  · have hh := (hitems _ List.mem_cons_self).sign
    obtain ⟨c, s, hc, hlead, htext⟩ := layout_eq_cons hh rest last
    have hword : isWordCharacter c = false ↔ ¬ (h.kind.isWord = true ∨ h.kind = .number) := by
      rw [← isWordCharacter_iff hlead, Bool.not_eq_true]
    rw [htext, Sign.RunsInto]
    cases hg with
    | mark m => simp [EndsBefore, Mark.growsBy_iff hlead]
    | keyword k => simpa [EndsBefore, Kind.MergesWith, Kind.isWord] using hword
    | identifier _ => simpa [EndsBefore, Kind.MergesWith, Kind.isWord] using hword
    | number n =>
      have hrest : ∀ i ∈ rest, i.WellFormed := fun i hi => hitems i (List.mem_cons_of_mem _ hi)
      have hpoint : (c = '.' ∧ ∃ d after, s ++ layout rest last = d :: after ∧ d.isDigit = true) ↔
          h.kind = .mark .dot ∧ ∃ k after, rest = ⟨[], k⟩ :: after ∧ k.kind = .number := by
        rw [eq_point_iff hlead, ← layout_eq_digit_cons_iff hrest hlast]
        refine and_congr_right fun hdot => ?_
        -- nothing is left of the dot, so its point stands right in front of the next sign
        have hempty : s = [] := hh.eq_nil_of_dot hdot hc
        rw [hempty, List.nil_append]
      show n.EndsBefore _ ↔ _
      rw [Numeral.endsBefore_cons_iff hwf, hpoint, isDigit_iff hlead]
      simp [Kind.MergesWith, Kind.isWord]
    | string body => simp [EndsBefore, Kind.MergesWith, Kind.isWord]

end LoxScan
