/-
The cut of a text is its only cut by the longest match.

* `Element.length_le_read` — no well-formed element at the start of a text is longer than the one
  that is read;
* `Element.longestAt_iff` — the longest element at the start of a text is a well-formed one that
  ends before the rest;
* `longestCut_cut`, `LongestCut.eq_cut` — the cut is one by the longest match, and the only one.
-/
import LoxScan.Element.LongestMatch
import LoxScan.Proofs.Boundary

namespace LoxScan

theorem length_le_takeWhile {p : Char → Bool} {run s : List Char} (hrun : ∀ c ∈ run, p c = true)
    (h : run <+: s) : run.length ≤ (s.takeWhile p).length := by
  obtain ⟨t, rfl⟩ := h
  rw [List.takeWhile_append_of_pos hrun, List.length_append]
  omega

namespace Numeral

theorem length_takeWhile_le_read (s : List Char) :
    (s.takeWhile Char.isDigit).length ≤ (read s).1.text.length := by
  unfold read
  split
  · split <;> simp [text]
  · simp [text]

/-- No numeral at the start of a text is longer than the one that is read. -/
theorem length_le_read {n : Numeral} (hwf : n.WellFormed) {s : List Char} (h : n.text <+: s) :
    n.text.length ≤ (read s).1.text.length := by
  obtain ⟨whole, fraction⟩ := n
  have hwhole : ∀ c ∈ whole, c.isDigit = true :=
    fun c hc => hwf.2 c (List.mem_append_left _ hc)
  cases fraction with
  | nil =>
    have hrun : whole.length ≤ (s.takeWhile Char.isDigit).length := length_le_takeWhile hwhole h
    exact Nat.le_trans hrun (length_takeWhile_le_read s)
  | cons d fraction =>
    obtain ⟨t, rfl⟩ := h
    -- the point ends the digits in front of it, so both numerals have the same whole part
    have hstop := stops_at (p := Char.isDigit) (c := '.') rfl (d :: (fraction ++ t))
    have hfraction : ∀ c ∈ fraction, c.isDigit = true := fun c hc => hwf.2 c (by simp [hc])
    have hd : d.isDigit = true := hwf.2 d (by simp)
    have hlength := length_le_takeWhile hfraction (List.prefix_append fraction t)
    rw [text_point_append, read, takeWhile_run hwhole hstop, dropWhile_run hwhole hstop]
    simp only [hd, if_true, text, reduceCtorEq, if_false, List.length_append, List.length_cons]
    omega

end Numeral

namespace Element

/-- **No well-formed element is longer** than the one that is read in its place. -/
theorem length_le_read {d : Element} (hwf : d.WellFormed) {c : Char} {s : List Char}
    (h : d.text <+: c :: s) :
    (read c s).1.WellFormed ∧ d.text.length ≤ (read c s).1.text.length := by
  obtain ⟨t, ht⟩ := h
  cases d with
  | blank b =>
    cases ht
    rw [read, Lead.of_isBlank hwf]
    exact ⟨hwf, Nat.le_refl _⟩
  | newline =>
    cases ht
    exact ⟨trivial, Nat.le_refl _⟩
  | comment body =>
    cases ht
    rw [read, Lead.of_ofChar? (m := .slash) rfl]
    refine ⟨wellFormed_readMark _ _, ?_⟩
    have hlength := length_le_takeWhile (bne_of_not_mem hwf) (List.prefix_append body t)
    simpa [readMark, text] using hlength
  | mark m =>
    rcases m.text_cases with ⟨b, hb, hm⟩ | ⟨b, n, hb, hn, hm⟩
    · -- what is read has at least one character, and the mark has no more
      rw [text, hb] at ht
      cases ht
      have hne := List.length_pos_iff.mpr (text_read_ne_nil c t)
      rw [read, Lead.of_ofChar? hm] at hne ⊢
      refine ⟨wellFormed_readMark _ _, ?_⟩
      rw [text, hb]
      exact hne
    · -- an equals sign that makes a longer mark is always taken
      rw [text, hb] at ht
      cases ht
      rw [read, Lead.of_ofChar? hn]
      show (readMark n ('=' :: t)).1.WellFormed ∧
        (mark m).text.length ≤ (readMark n ('=' :: t)).1.text.length
      rw [readMark_equals hm]
      exact ⟨trivial, Nat.le_refl _⟩
  | word letters =>
    obtain ⟨b, after, rfl, hb, hafter⟩ := hwf
    cases ht
    rw [read, Lead.of_isAlphabetic hb]
    refine ⟨⟨c, _, rfl, hb, fun d hd => of_mem_takeWhile hd⟩, ?_⟩
    have hlength := length_le_takeWhile hafter (List.prefix_append after t)
    simpa [text] using hlength
  | number n =>
    obtain ⟨b, after, htext⟩ := List.exists_cons_of_ne_nil (Numeral.text_ne_nil hwf)
    have hdigit := Numeral.isDigit_of_text_eq_cons hwf htext
    have hc : b = c := by
      rw [show (number n).text = b :: after from htext] at ht
      exact (List.cons.inj ht).1
    subst hc
    rw [read, Lead.of_isDigit hdigit]
    exact ⟨wellFormed_numeral hdigit s, Numeral.length_le_read hwf ⟨t, ht⟩⟩
  | string body =>
    cases ht
    have hbody := bne_of_not_mem hwf
    have hrest := stops_at (p := (· != '"')) (c := '"') rfl t
    show (read '"' (body ++ ['"'] ++ t)).1.WellFormed ∧
      (string body).text.length ≤ (read '"' (body ++ ['"'] ++ t)).1.text.length
    rw [List.append_assoc, List.singleton_append, read, Lead.of_quote]
    simp only [readString, takeWhile_run hbody hrest, dropWhile_run hbody hrest]
    exact ⟨hwf, Nat.le_refl _⟩
  | openString body => exact hwf.elim
  | stray b => exact hwf.elim

/-- The longest element at the start of a text is the one that is read. -/
theorem read_of_longestAt {e : Element} {rest : List Char} (h : e.LongestAt (e.text ++ rest))
    {c : Char} {s : List Char} (htext : e.text = c :: s) : read c (s ++ rest) = (e, rest) := by
  obtain ⟨hwf, hprefix, hlongest⟩ := h
  have hsource : e.text ++ rest = c :: (s ++ rest) := by rw [htext, List.cons_append]
  rw [hsource] at hprefix hlongest
  obtain ⟨hread, hle⟩ := length_le_read hwf hprefix
  have hsplit := text_read_append c (s ++ rest)
  have hge := hlongest _ hread ⟨_, hsplit⟩
  -- both stand at the start of one text and are equally long
  rw [← hsource] at hsplit
  obtain ⟨htexts, hrests⟩ := List.append_inj hsplit (Nat.le_antisymm hge hle)
  exact Prod.ext (eq_of_text_eq hread hwf htexts) hrests

/-- **The longest element** at the start of a text is a well-formed one that ends before the
rest. -/
theorem longestAt_iff {e : Element} {rest : List Char} :
    e.LongestAt (e.text ++ rest) ↔ e.WellFormed ∧ e.EndsBefore rest := by
  constructor
  · intro h
    obtain ⟨c, s, htext⟩ := List.exists_cons_of_ne_nil (text_ne_nil h.1)
    have hend := endsBefore_read c (s ++ rest)
    rw [read_of_longestAt h htext] at hend
    exact ⟨h.1, hend⟩
  · rintro ⟨hwf, hend⟩
    refine ⟨hwf, List.prefix_append _ _, fun d hd hprefix => ?_⟩
    obtain ⟨c, s, htext⟩ := List.exists_cons_of_ne_nil (text_ne_nil hwf)
    rw [htext, List.cons_append] at hprefix
    have hle := (length_le_read hd hprefix).2
    rwa [read_append hwf hend htext] at hle

/-- Where what is read has a fault, no well-formed element stands. -/
theorem unmatched_of_fault {c : Char} {s : List Char} (h : (read c s).1.fault?.isSome = true) :
    Unmatched (c :: s) := by
  intro d hd hprefix
  rw [fault?_eq_none (length_le_read hd hprefix).1] at h
  exact absurd h (by simp)

/-- An element with a fault is the whole rest behind a quote, or any other character. -/
theorem read_of_fault {c : Char} {s : List Char} (h : (read c s).1.fault?.isSome = true) :
    c = '"' ∧ read c s = (openString s, []) ∨ c ≠ '"' ∧ read c s = (stray c, s) := by
  unfold read at h ⊢
  split at h
  · exact absurd h (by simp [fault?])
  · exact absurd h (by simp [fault?])
  · next hlead =>
    refine Or.inl ⟨Lead.eq_of_of_eq_quote hlead, ?_⟩
    unfold readString at h
    split at h
    · next hdrop => simp [readString, hdrop]
    · exact absurd h (by simp [fault?])
  · exact absurd h (by simp [fault?])
  · exact absurd h (by simp [fault?])
  · rw [fault?_eq_none (wellFormed_readMark _ s)] at h
    exact absurd h (by simp)
  · next hlead =>
    refine Or.inr ⟨?_, rfl⟩
    rintro rfl
    exact absurd (hlead.symm.trans Lead.of_quote) (by simp)

end Element

/-- Behind a quote where nothing matches there is no other quote. -/
theorem not_mem_of_unmatched {body : List Char} (h : Unmatched ('"' :: body)) : '"' ∉ body := by
  intro hmem
  obtain ⟨inner, after, rfl, hinner⟩ := List.eq_append_cons_of_mem hmem
  exact h (.string inner) hinner ⟨after, by simp [Element.text]⟩

/-- **The cut is by the longest match.** -/
theorem longestCut_cut (s : List Char) : LongestCut s (cut s) := by
  induction h : s.length using Nat.strongRecOn generalizing s with
  | ind n ih =>
    cases s with
    | nil =>
      rw [cut_nil]
      exact .nil
    | cons c s =>
      have hlength := Element.length_read_le c s
      simp only [List.length_cons] at h
      have hrest := ih _ (by omega) (Element.read c s).2 rfl
      have hsplit := Element.text_read_append c s
      rw [cut_cons]
      rcases Element.wellFormed_read c s with hwf | hfault
      · have hlongest := Element.longestAt_iff.mpr ⟨hwf, Element.endsBefore_read c s⟩
        rw [← hsplit]
        exact .matched hlongest hrest
      · have hnone := Element.unmatched_of_fault hfault
        rcases Element.read_of_fault hfault with ⟨rfl, hread⟩ | ⟨hquote, hread⟩
        · rw [hread, cut_nil]
          exact .openString hnone
        · rw [hread] at hrest ⊢
          exact .stray hquote hnone hrest

/-- What is read where nothing matches. -/
theorem Unmatched.fault_read {c : Char} {s : List Char} (h : Unmatched (c :: s)) :
    (Element.read c s).1.fault?.isSome = true := by
  rcases Element.wellFormed_read c s with hwf | hfault
  · exact absurd ⟨_, Element.text_read_append c s⟩ (h _ hwf)
  · exact hfault

/-- **There is no other cut** by the longest match. -/
theorem LongestCut.eq_cut {s : List Char} {es : List Element} (h : LongestCut s es) :
    es = cut s := by
  induction h with
  | nil => rw [cut_nil]
  | matched hlongest _ ih =>
    obtain ⟨hwf, hend⟩ := Element.longestAt_iff.mp hlongest
    rw [cut_text_append hwf hend, ← ih]
  | openString hnone =>
    rcases Element.read_of_fault hnone.fault_read with ⟨_, hread⟩ | ⟨hquote, _⟩
    · rw [cut_cons, hread, cut_nil]
    · exact absurd rfl hquote
  | stray hquote hnone _ ih =>
    rcases Element.read_of_fault hnone.fault_read with ⟨hc, _⟩ | ⟨_, hread⟩
    · exact absurd hc hquote
    · rw [cut_cons, hread, ← ih]

end LoxScan
