/-
The rows of tokens can be read back.

* `Sign.row` — the row of a token, which does not depend on its line;
* `ofScan_out_eq_rows` — the rows of a scan are printed one behind the other;
* `Sign.cut_row` — behind the name of the kind, the scanner itself reads the token off its row;
* `Sign.row_append_inj` — so no row is the beginning of another one;
* `rows_injective` — and rows that are put together determine the tokens;
* `ofScan_out_eq_iff` — scans print the same if and only if their tokens are the same up to lines.

Design notes: a lexeme and the value of a string are printed as they are, and a string may hold
newlines and texts that look like other rows.  What tells where such a row ends is the lexeme: it is
followed by a blank or a newline, which prolongs no token, and it determines the rest of the row.
-/
import LoxScan.CommandLine.Printed
import LoxScan.Proofs.Layout

namespace LoxScan

/-! ### Rows -/

/-- What stands behind the lexeme in a row: the value of a literal, and a newline. -/
def Sign.rowEnd (g : Sign) : List Char :=
  match g.literal with
  | some value => ' ' :: (value.display.toList ++ ['\n'])
  | none => ['\n']

/-- The row of a token with its newline. -/
def Sign.row (g : Sign) : List Char := g.kind.name.toList ++ ' ' :: (g.lexeme ++ g.rowEnd)

theorem Token.toList_display (t : Token) : (t.display ++ "\n").toList = t.sign.row := by
  rw [Token.display, Sign.row, Sign.rowEnd, Token.sign]
  cases t.literal <;> simp

/-- **The rows of a scan** are printed one behind the other. -/
theorem ofScan_out_eq_rows (s : Scan) (source file : String) :
    (Printed.ofScan s source file).out.toList = (s.tokens.map Token.sign).flatMap Sign.row := by
  rw [Printed.ofScan, String.toList_join, List.flatMap_map, List.flatMap_map]
  simp only [Token.toList_display]

/-! ### The beginning of a row -/

theorem Kind.space_not_mem_name (k : Kind) : ' ' ∉ k.name.toList := by
  cases k with
  | mark m => cases m <;> decide
  | keyword w => cases w <;> decide
  | _ => decide

/-- Texts that begin with rows have the first kind in common, and what stands behind its name. -/
theorem Sign.kind_eq_of_row_append {g h : Sign} {s t : List Char}
    (heq : g.row ++ s = h.row ++ t) :
    g.kind = h.kind ∧ g.lexeme ++ (g.rowEnd ++ s) = h.lexeme ++ (h.rowEnd ++ t) := by
  simp only [row, List.append_assoc, List.cons_append] at heq
  obtain ⟨hname, hrest⟩ :=
    append_cons_inj g.kind.space_not_mem_name h.kind.space_not_mem_name heq
  exact ⟨Kind.name_injective (String.toList_inj.mp hname), hrest⟩

theorem Sign.head?_rowEnd (g : Sign) (s : List Char) :
    ∀ c ∈ (g.rowEnd ++ s).head?, Lead.of c = .blank ∨ Lead.of c = .newline := by
  intro c hc
  rw [rowEnd] at hc
  split at hc
  · cases hc
    exact Or.inl rfl
  · cases hc
    exact Or.inr rfl

/-- **The lexeme is read off a row**: what is read behind the name of the kind is the element that
denotes the token. -/
theorem Sign.cut_row {e : Element} {g : Sign} (hwf : e.WellFormed) (hg : e.Denotes g)
    (s : List Char) : cut (g.lexeme ++ (g.rowEnd ++ s)) = e :: cut (g.rowEnd ++ s) := by
  rw [hg.lexeme_eq]
  exact cut_text_append hwf (hg.endsBefore_of_lead (g.head?_rowEnd s))

/-! ### Rows behind each other -/

/-- The sign is that of a token in a scan, which may be the end of the input. -/
def Sign.Scanned (g : Sign) : Prop := g.WellFormed ∨ g = Sign.endOfInput

theorem scanned_of_mem_signs {source : String} {g : Sign}
    (h : g ∈ (scan source).tokens.map Token.sign) : g.Scanned := by
  by_cases hend : g.kind = .endOfInput
  · rw [scan_signs, List.mem_append, List.mem_singleton] at h
    rcases h with h | h
    · obtain ⟨e, _, he⟩ := List.mem_filterMap.mp h
      -- no element denotes the end of the input
      cases Element.sign?_eq_some_iff.mp he <;> cases hend
    · exact Or.inr h
  · obtain ⟨t, ht, rfl⟩ := List.mem_map.mp h
    exact Or.inl (wellFormed_of_mem_tokens ht hend)

/-- Only the end of the input has its kind. -/
theorem Sign.Scanned.eq_endOfInput {g : Sign} (h : g.Scanned) (hend : g.kind = .endOfInput) :
    g = Sign.endOfInput := by
  rcases h with h | h
  · rw [WellFormed, hend] at h
    exact h.elim
  · exact h

/-- **No row is the beginning of another one.** -/
theorem Sign.row_append_inj {g h : Sign} (hg : g.Scanned) (hh : h.Scanned) {s t : List Char}
    (heq : g.row ++ s = h.row ++ t) : g = h ∧ s = t := by
  obtain ⟨hkind, hrest⟩ := kind_eq_of_row_append heq
  have hsame : g = h := by
    by_cases hend : g.kind = .endOfInput
    · rw [hg.eq_endOfInput hend, hh.eq_endOfInput (hkind ▸ hend)]
    · have hgwf : g.WellFormed := hg.resolve_right fun h => hend (h ▸ rfl)
      have hhwf : h.WellFormed := hh.resolve_right fun h => hend (hkind ▸ h ▸ rfl)
      obtain ⟨d, hdwf, hd⟩ := wellFormed_iff.mp hgwf
      obtain ⟨e, hewf, he⟩ := wellFormed_iff.mp hhwf
      -- both lexemes are read off the same text
      have hcut := cut_row hdwf hd s
      rw [hrest, cut_row hewf he t] at hcut
      have hsign := hd.sign?_eq_some
      rw [← (List.cons.inj hcut).1, he.sign?_eq_some] at hsign
      exact (Option.some.inj hsign).symm
  subst hsame
  exact ⟨rfl, List.append_cancel_left heq⟩

/-- **Rows determine the tokens.** -/
theorem rows_injective {gs hs : List Sign} (hgs : ∀ g ∈ gs, g.Scanned) (hhs : ∀ h ∈ hs, h.Scanned)
    (heq : gs.flatMap Sign.row = hs.flatMap Sign.row) : gs = hs := by
  have hne : ∀ g : Sign, g.Scanned → g.row ≠ [] := by
    intro g _
    simp [Sign.row]
  refine flatMap_inj hne ?_ hgs hhs heq
  intro g h s t hg hh hrow
  exact Sign.row_append_inj hg hh hrow

/-- **The printed tokens are unambiguous**: two sources print the same rows if and only if they have
the same tokens, up to the lines on which these stand. -/
theorem ofScan_out_eq_iff (source other file otherFile : String) :
    (Printed.ofScan (scan source) source file).out =
        (Printed.ofScan (scan other) other otherFile).out ↔
      (scan source).tokens.map Token.sign = (scan other).tokens.map Token.sign := by
  rw [← String.toList_inj, ofScan_out_eq_rows, ofScan_out_eq_rows]
  constructor
  · intro heq
    exact rows_injective (fun _ => scanned_of_mem_signs) (fun _ => scanned_of_mem_signs) heq
  · intro heq
    rw [heq]

-- A row of a string may look like a row for the end of the input with other rows around it.
example : (Printed.ofScan (scan "\"+\nEOF \nPlus \"+") "" "").out =
    "String \"+\nEOF \nPlus \" +\nEOF \nPlus \nPlus +\nEOF \n" := by decide +kernel

end LoxScan
