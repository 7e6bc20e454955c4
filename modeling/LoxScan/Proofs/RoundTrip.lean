/-
Writing signs out and scanning them again.

* `ReadsAs` — a text without faults and the signs that it holds;
* `readsAs_cons_iff` — the text of an element and a rest that has no characters to spare hold the
  sign of the element if it ends before the rest;
* `readsAs_layout_iff` — a layout is read as its signs if none of them runs into what follows it;
* `scan_layout` — the same for scans, whose tokens are all well formed.

Design notes: when a sign does run into what follows it, the text may be read as quite different
signs from there on, and a comment may swallow any number of them.  What excludes that the original
signs come back all the same is their weight: the separators of a layout weigh nothing, and a text
whose signs weigh as much as the text itself has no room for a comment.
-/
import LoxScan.Proofs.Layout

namespace LoxScan

/-! ### Texts that are read as signs -/

/-- The text has no faults and holds these signs. -/
def ReadsAs (s : List Char) (gs : List Sign) : Prop :=
  (cut s).filterMap Element.fault? = [] ∧ (cut s).filterMap Element.sign? = gs

theorem readsAs_nil : ReadsAs [] [] := by simp [ReadsAs]

/-- What is neither a token nor a fault does not matter. -/
theorem readsAs_silent_iff {s t : List Char} {gs : List Sign} {e : Element} (hsilent : e.Silent)
    (hcut : cut s = e :: cut t) : ReadsAs s gs ↔ ReadsAs t gs := by
  rw [ReadsAs, hcut, List.filterMap_cons_none hsilent.fault?_eq_none,
    List.filterMap_cons_none hsilent.sign?_eq_none]
  exact Iff.rfl

theorem cut_separator {c : Char} (hc : c = ' ' ∨ c = '\t' ∨ c = '\r' ∨ c = '\n') (s : List Char) :
    ∃ e : Element, e.Silent ∧ cut (c :: s) = e :: cut s := by
  by_cases hnewline : c = '\n'
  · subst hnewline
    exact ⟨.newline, .newline, cut_text_append (e := .newline) trivial trivial⟩
  · have hblank : c = ' ' ∨ c = '\t' ∨ c = '\r' := by simpa [hnewline] using hc
    exact ⟨.blank c, .blank c, cut_text_append (e := .blank c) hblank trivial⟩

theorem readsAs_separator_append_iff {w s : List Char} {gs : List Sign} (hw : IsSeparator w) :
    ReadsAs (w ++ s) gs ↔ ReadsAs s gs := by
  induction w with
  | nil => exact Iff.rfl
  | cons c w ih =>
    obtain ⟨e, hsilent, hcut⟩ := cut_separator (hw c List.mem_cons_self) (w ++ s)
    rw [List.cons_append, readsAs_silent_iff hsilent hcut]
    exact ih fun d hd => hw d (List.mem_cons_of_mem _ hd)

theorem readsAs_text_append_iff {e : Element} {g : Sign} {s : List Char} {gs : List Sign}
    (hwf : e.WellFormed) (hg : e.Denotes g) (hend : e.EndsBefore s) :
    ReadsAs (e.text ++ s) (g :: gs) ↔ ReadsAs s gs := by
  rw [ReadsAs, cut_text_append hwf hend, List.filterMap_cons_none hg.fault?_eq_none,
    List.filterMap_cons_some hg.sign?_eq_some, List.cons.injEq]
  simp [ReadsAs]

/-! ### The weight of a text -/

/-- How many characters of the text are no separators. -/
def weight (s : List Char) : Nat :=
  s.countP fun c => c ∉ [' ', '\t', '\r', '\n']

/-- The characters of signs. -/
def lexemes (gs : List Sign) : List Char := gs.flatMap Sign.lexeme

theorem weight_append (s t : List Char) : weight (s ++ t) = weight s + weight t :=
  List.countP_append

theorem weight_eq_zero {w : List Char} (hw : IsSeparator w) : weight w = 0 := by
  rw [weight, List.countP_eq_zero]
  intro c hc
  rcases hw c hc with rfl | rfl | rfl | rfl <;> decide

theorem weight_layout {items : List Spaced} {last : List Char}
    (hitems : ∀ i ∈ items, i.WellFormed) (hlast : IsSeparator last) :
    weight (layout items last) = weight (lexemes (items.map Spaced.sign)) := by
  induction items with
  | nil => exact weight_eq_zero hlast
  | cons i items ih =>
    have hrest := ih fun j hj => hitems j (List.mem_cons_of_mem _ hj)
    have hgap := weight_eq_zero (hitems i List.mem_cons_self).gap
    rw [layout_cons, weight_append, weight_append, hgap, hrest, Nat.zero_add, ← weight_append]
    rfl

/-- The first character of a sign weighs something. -/
theorem Sign.WellFormed.weight_pos {g : Sign} (h : g.WellFormed) {c : Char} {s : List Char}
    (hc : g.lexeme = c :: s) (t : List Char) : 0 < weight (c :: t) := by
  obtain ⟨d, after, hd, hlead⟩ := h.lexeme_eq_cons
  rw [(List.cons.inj (hd.symm.trans hc)).1] at hlead
  refine List.countP_pos_iff.mpr ⟨c, List.mem_cons_self, ?_⟩
  have hother : ¬ (Lead.of c = .blank ∨ Lead.of c = .newline) := by
    rw [hlead]
    cases g.kind <;> simp [Kind.lead]
  have hseparator : ¬ IsSeparator [c] := fun hw => hother (hw.lead_of_mem List.mem_cons_self)
  simpa [IsSeparator] using hseparator

/-- The characters of the signs in a text stand in the text, in this order. -/
theorem lexemes_sublist (es : List Element) :
    (lexemes (es.filterMap Element.sign?)).Sublist (es.flatMap Element.text) := by
  induction es with
  | nil => exact List.Sublist.refl _
  | cons e es ih =>
    rw [List.flatMap_cons]
    cases h : e.sign? with
    | none =>
      rw [List.filterMap_cons_none h]
      exact ih.trans (List.sublist_append_right _ _)
    | some g =>
      rw [List.filterMap_cons_some h, lexemes, List.flatMap_cons,
        (Element.sign?_eq_some_iff.mp h).lexeme_eq]
      exact (List.Sublist.refl _).append ih

/-- A text weighs at least as much as its signs. -/
theorem ReadsAs.weight_le {s : List Char} {gs : List Sign} (h : ReadsAs s gs) :
    weight (lexemes gs) ≤ weight s := by
  have hsublist := lexemes_sublist (cut s)
  rw [flatMap_text_cut, h.2] at hsublist
  exact hsublist.countP_le

/-! ### The round trip -/

/-- **No sign comes back** unless it is what is read in its place: whatever else is read there is
missing in the weight of the signs. -/
theorem ReadsAs.read_eq {e : Element} {g : Sign} {s : List Char} {gs : List Sign}
    (h : ReadsAs (e.text ++ s) (g :: gs)) (hwf : e.WellFormed) (hg : e.Denotes g)
    (hweight : weight s ≤ weight (lexemes gs)) {c : Char} {t : List Char}
    (htext : e.text = c :: t) :
    Element.read c (t ++ s) = (e, s) := by
  have hsource : e.text ++ s = c :: (t ++ s) := by rw [htext, List.cons_append]
  have hread := (Element.length_le_read hwf ⟨s, hsource⟩).1
  have hsplit := Element.text_read_append c (t ++ s)
  have hne := Element.text_read_ne_nil c (t ++ s)
  have hcut := cut_cons c (t ++ s)
  rw [hsource] at h
  rcases hr : Element.read c (t ++ s) with ⟨d, rest⟩
  simp only [hr] at hread hsplit hne hcut
  rcases d.denotes_or_breaks_or_silent with ⟨g', hg'⟩ | ⟨f, hf⟩ | hsilent
  · -- the token that is read must be the first sign, and its text says which element it is
    have hsigns := h.2
    rw [hcut, List.filterMap_cons_some hg'.sign?_eq_some] at hsigns
    have htexts : d.text = e.text := by
      rw [← hg'.lexeme_eq, (List.cons.inj hsigns).1, hg.lexeme_eq]
    have hrests : rest = s := by
      rw [← hsource, htexts] at hsplit
      exact List.append_cancel_left hsplit
    rw [Element.eq_of_text_eq hread hwf htexts, hrests]
  · have hnone := Element.fault?_eq_none hread
    rw [hf.fault?_eq_some] at hnone
    exact absurd hnone (by simp)
  · -- the signs must come from the rest, but something that weighs is gone
    exfalso
    obtain ⟨b, u, hb⟩ := List.exists_cons_of_ne_nil hne
    have hfirst : b = c := by
      rw [hb] at hsplit
      exact (List.cons.inj hsplit).1
    subst hfirst
    have hpos : 0 < weight d.text := by
      rw [hb]
      exact (Sign.wellFormed_iff.mpr ⟨e, hwf, hg⟩).weight_pos (hg.lexeme_eq.trans htext) u
    have hsigns := ((readsAs_silent_iff hsilent hcut).mp h).weight_le
    have htotal := congrArg weight hsplit
    rw [lexemes, List.flatMap_cons, weight_append, hg.lexeme_eq] at hsigns
    rw [← hsource, weight_append, weight_append] at htotal
    rw [lexemes] at hweight
    omega

/-- **A sign and a rest** that has no characters to spare come back if and only if the sign ends
before the rest and the rest comes back. -/
theorem readsAs_cons_iff {e : Element} {g : Sign} {s : List Char} {gs : List Sign}
    (hwf : e.WellFormed) (hg : e.Denotes g) (hweight : weight s ≤ weight (lexemes gs)) :
    ReadsAs (e.text ++ s) (g :: gs) ↔ e.EndsBefore s ∧ ReadsAs s gs := by
  constructor
  · intro h
    obtain ⟨c, t, htext⟩ := List.exists_cons_of_ne_nil (Element.text_ne_nil hwf)
    have hend := Element.endsBefore_read c (t ++ s)
    rw [h.read_eq hwf hg hweight htext] at hend
    exact ⟨hend, (readsAs_text_append_iff hwf hg hend).mp h⟩
  · rintro ⟨hend, h⟩
    exact (readsAs_text_append_iff hwf hg hend).mpr h

/-- **A layout is read as its signs** if and only if none of them runs into what follows it. -/
theorem readsAs_layout_iff {items : List Spaced} {last : List Char}
    (hitems : ∀ i ∈ items, i.WellFormed) (hlast : IsSeparator last) :
    ReadsAs (layout items last) (items.map Spaced.sign) ↔ ¬ Fuses items := by
  induction items with
  | nil =>
    have hempty : ReadsAs (last ++ []) [] := (readsAs_separator_append_iff hlast).mpr readsAs_nil
    rw [List.append_nil] at hempty
    exact iff_of_true hempty not_fuses_nil
  | cons i items ih =>
    have hrest : ∀ j ∈ items, j.WellFormed := fun j hj => hitems j (List.mem_cons_of_mem _ hj)
    obtain ⟨hgap, hsign⟩ := hitems i List.mem_cons_self
    obtain ⟨e, hwf, hg⟩ := Sign.wellFormed_iff.mp hsign
    -- the rest is a layout, so it has no characters to spare
    have hweight := Nat.le_of_eq (weight_layout hrest hlast)
    rw [layout_cons, readsAs_separator_append_iff hgap, List.map_cons, hg.lexeme_eq,
      readsAs_cons_iff hwf hg hweight, Element.endsBefore_layout_iff hwf hg hrest hlast, ih hrest,
      fuses_cons_iff, not_or]

theorem readsAs_scan_iff {source : String} {gs : List Sign} :
    (scan source).diagnostics = [] ∧
        (scan source).tokens.map Token.sign = gs ++ [Sign.endOfInput] ↔
      ReadsAs source.toList gs := by
  rw [ReadsAs, ← scan_faults, scan_signs, List.append_cancel_right_eq, List.map_eq_nil_iff]

/-- **Round trip**: the tokens of a scan are well formed, and well-formed tokens that are written
out with separators come back from a scan without diagnostics if and only if none of them runs into
what follows it. -/
theorem scan_layout :
    (∀ source, ∀ t ∈ (scan source).tokens, t.kind ≠ .endOfInput → t.sign.WellFormed) ∧
      ∀ items last, (∀ i ∈ items, i.WellFormed) → IsSeparator last →
        ((scan (String.ofList (layout items last))).diagnostics = [] ∧
            (scan (String.ofList (layout items last))).tokens.map Token.sign =
              items.map Spaced.sign ++ [Sign.endOfInput] ↔
          ¬ Fuses items) := by
  refine ⟨fun source t ht hend => wellFormed_of_mem_tokens ht hend, ?_⟩
  intro items last hitems hlast
  rw [readsAs_scan_iff, String.toList_ofList]
  exact readsAs_layout_iff hitems hlast

/-- A dot between two integers comes back only if a separator keeps it from one of them. -/
theorem scan_layout_point :
    let one : Sign := ⟨.number, ['1'], some (.number (Numeral.value ⟨['1'], []⟩))⟩
    let dot : Sign := ⟨.mark .dot, ['.'], none⟩
    ¬ ((scan "1.1").diagnostics = [] ∧
        (scan "1.1").tokens.map Token.sign = [one, dot, one, .endOfInput]) ∧
      (scan "1. 1").diagnostics = [] ∧
        (scan "1. 1").tokens.map Token.sign = [one, dot, one, .endOfInput] := by
  intro one dot
  have hone : one.WellFormed := ⟨⟨['1'], []⟩, ⟨by simp, by simp⟩, rfl, rfl⟩
  have hdot : dot.WellFormed := ⟨rfl, rfl⟩
  have hnil : IsSeparator [] := by simp [IsSeparator]
  have hblank : IsSeparator [' '] := by simp [IsSeparator]
  have hitems : ∀ w, IsSeparator w →
      ∀ i ∈ [⟨[], one⟩, ⟨[], dot⟩, Spaced.mk w one], i.WellFormed := by
    intro w hw
    simp only [List.forall_mem_cons]
    exact ⟨⟨hnil, hone⟩, ⟨hnil, hdot⟩, ⟨hw, hone⟩, by simp⟩
  have htight := scan_layout.2 _ [] (hitems [] hnil) hnil
  have hspaced := scan_layout.2 _ [] (hitems [' '] hblank) hnil
  have hfuses : Fuses [⟨[], one⟩, ⟨[], dot⟩, ⟨[], one⟩] := by
    exact fuses_cons_iff.mpr (Or.inl (Or.inr ⟨rfl, by decide, rfl, one, [], rfl, rfl⟩))
  have hapart : ¬ Fuses [⟨[], one⟩, ⟨[], dot⟩, ⟨[' '], one⟩] := by
    simp [fuses_cons_iff, not_fuses_nil, Sign.RunsInto, Kind.MergesWith, Kind.isWord, one, dot]
  exact ⟨fun h => htight.mp h hfuses, hspaced.mpr hapart⟩

end LoxScan
