/-
What a report shows of the character that it is about.

* `column` — where on its line a character stands;
* `Diagnostic.printedSource` — what stands behind the bar in the row of the source;
* `HiddenAtEnd` — a character and all that follows on its line are white space;
* `ShowsCharacter` — the row of the source shows a character in its column unless it is hidden;
* `strays_shown` — every report about a stray character does so;
* `trailing_white_space_hidden` — a stray character that is hidden.

Design notes: only four characters are blanks for the scan, but a report takes all white space of
Unicode off the end of a line.  So a character may be stray and still not be shown.  Nor is one on
a line that the counter of lines cannot number (`uncounted_line_not_shown`).
-/
import LoxScan.Proofs.ReportRows

namespace LoxScan

/-! ### The row of the source -/

/-- The column of a character on its line, counted from zero, if this text stands before it. -/
def column (before : List Char) : ℕ := (before.reverse.takeWhile (· != '\n')).length

/-- What stands behind the bar in the row of the source. -/
def Diagnostic.printedSource (d : Diagnostic) (row : String) : List Char :=
  row.toList.drop (d.barColumn + 1)

/-- The character and all that follows it on its line are white space. -/
def HiddenAtEnd (c : Char) (after : List Char) : Prop :=
  ∀ b ∈ c :: after.takeWhile (· != '\n'), Unicode.isWhiteSpace b = true

/-- The line through a character, without the white space at its end. -/
theorem shownLine?_append_cons {c : Char} (hc : c ≠ '\n') (before after : List Char) :
    shownLine? (before ++ c :: after) (1 + before.count '\n') =
      some (dropEndWhile Unicode.isWhiteSpace
        ((before.reverse.takeWhile (· != '\n')).reverse ++
          c :: after.takeWhile (· != '\n'))) := by
  have hline : (c :: after).takeWhile (· != '\n') = c :: after.takeWhile (· != '\n') :=
    List.takeWhile_cons_of_pos (by simpa using hc)
  rw [shownLine?, lineAt?_lineAround, Option.map_some, lineAround_append,
    dropEndWhile_dropFinal (by decide), hline]

/-- What is shown of a line stands behind the bar of its row. -/
theorem Diagnostic.exists_sourceRow {d : Diagnostic} {source : String} {shown : List Char}
    (h : shownLine? source.toList d.line.toNat = some shown) :
    ∃ row, d.sourceRow? source = some row ∧ d.printedSource row = behindBar shown := by
  rw [sourceRow?_eq, h]
  refine ⟨_, rfl, ?_⟩
  rw [printedSource, toList_sourceRow, ← length_front, ← List.drop_drop, List.drop_left]
  rfl

theorem Diagnostic.getElem?_behindBar {shown : List Char} {c : Char} {i : ℕ}
    (h : shown[i]? = some c) : (behindBar shown)[i + 1]? = some c := by
  have hne : shown ≠ [] := by
    rintro rfl
    cases h
  rw [behindBar, if_neg hne, List.getElem?_cons_succ, h]

theorem Diagnostic.length_behindBar_le (shown : List Char) :
    (behindBar shown).length ≤ shown.length + 1 := by
  rw [behindBar]
  split
  · exact Nat.zero_le _
  · exact le_rfl

/-- The report about a character shows it in the row of the source, in the column in which it stands
on its line, unless it is hidden. -/
structure ShowsCharacter (source : String) (c : Char) (line : UInt32) (before after : List Char)
    (row : String) : Prop where
  in_source : before ++ c :: after = source.toList
  /-- The report has a row of the source, whatever the file is called. -/
  source_row : (⟨.unexpectedCharacter c, line⟩ : Diagnostic).sourceRow? source = some row
  in_report : ∀ file, row ∈ (⟨.unexpectedCharacter c, line⟩ : Diagnostic).rows source file
  /-- The row holds the character, one blank behind the bar and its column further. -/
  shown : ¬ HiddenAtEnd c after →
    c ∈ Diagnostic.printedSource ⟨.unexpectedCharacter c, line⟩ row ∧
      (Diagnostic.printedSource ⟨.unexpectedCharacter c, line⟩ row)[column before + 1]? = some c
  /-- The row of a hidden character ends before its column. -/
  hidden : HiddenAtEnd c after →
    (Diagnostic.printedSource ⟨.unexpectedCharacter c, line⟩ row).length ≤ column before + 1

theorem showsCharacter {source : String} {c : Char} (hc : c ≠ '\n') {before after : List Char}
    (hsource : before ++ c :: after = source.toList)
    (hsize : 1 + before.count '\n' < UInt32.size) :
    ∃ row, ShowsCharacter source c (lineBehind before) before after row := by
  have hline := shownLine?_append_cons hc before after
  rw [hsource, ← toNat_lineBehind hsize] at hline
  obtain ⟨row, hrow, hprinted⟩ :=
    Diagnostic.exists_sourceRow (d := ⟨.unexpectedCharacter c, lineBehind before⟩) hline
  refine ⟨row, hsource, hrow, fun file => ?_, fun hvisible => ?_, fun hhidden => ?_⟩
  · rw [Diagnostic.rows, hrow]
    simp
  · have hlater : ∃ b ∈ c :: after.takeWhile (· != '\n'), Unicode.isWhiteSpace b = false := by
      simpa only [HiddenAtEnd, not_forall, exists_prop, Bool.not_eq_true] using hvisible
    have hcolumn := Diagnostic.getElem?_behindBar (getElem?_dropEndWhile hlater
      (before.reverse.takeWhile (· != '\n')).reverse)
    rw [List.length_reverse] at hcolumn
    rw [hprinted]
    exact ⟨List.mem_of_getElem? hcolumn, hcolumn⟩
  · -- what is left ends before the column
    have hlength := (List.rdropWhile_prefix Unicode.isWhiteSpace
      (before.reverse.takeWhile (· != '\n')).reverse).length_le
    rw [List.length_reverse] at hlength
    rw [hprinted, dropEndWhile_append_of_pos hhidden]
    exact (Diagnostic.length_behindBar_le _).trans (Nat.succ_le_succ hlength)

/-- **A stray character is shown** in the report about it, in the column in which it stands on its
line, unless the character and all that follows it on the line are white space.  The line has to be
one that can be counted. -/
theorem strays_shown (source : String) :
    (scan source).diagnostics = (placed source.toList).filterMap Placed.diagnostic? ∧
    ∀ p ∈ placed source.toList, ∀ c line,
      p.diagnostic? = some ⟨.unexpectedCharacter c, line⟩ →
      1 + p.before.count '\n' < UInt32.size →
        ∃ after row, ShowsCharacter source c line p.before after row := by
  refine ⟨scan_diagnostics_eq_placed source, fun p hp c line hd hsize => ?_⟩
  obtain ⟨hstray, rfl⟩ := Placed.line_of_unexpected hp hd
  obtain ⟨after, hsource⟩ := prefix_of_mem_placed hp
  rw [hstray, List.append_assoc] at hsource
  exact ⟨after, showsCharacter (Placed.stray_ne_newline hp hstray) hsource hsize⟩

/-- A no-break space in front of another stray character. -/
theorem strays_shown_in_front :
    ⟨['x', '\n'], .stray '\u00a0'⟩ ∈ placed "x\n\u00a0@ \t".toList ∧
      1 + ['x', '\n'].count '\n' < UInt32.size ∧
      ∃ after row, ShowsCharacter "x\n\u00a0@ \t" '\u00a0' 2 ['x', '\n'] after row ∧
        '\u00a0' ∈ Diagnostic.printedSource ⟨.unexpectedCharacter '\u00a0', 2⟩ row := by
  have hplace : ⟨['x', '\n'], .stray '\u00a0'⟩ ∈ placed "x\n\u00a0@ \t".toList := by decide +kernel
  have hsize : 1 + ['x', '\n'].count '\n' < UInt32.size := by decide
  obtain ⟨after, row, h⟩ := (strays_shown _).2 _ hplace '\u00a0' 2 (by decide +kernel) hsize
  have hsource : ['x', '\n', '\u00a0'] ++ after = ['x', '\n', '\u00a0'] ++ ['@', ' ', '\t'] :=
    h.in_source.trans (by decide +kernel)
  have hafter : after = ['@', ' ', '\t'] := List.append_cancel_left hsource
  have hvisible : ¬ HiddenAtEnd '\u00a0' after := by
    intro hhidden
    exact absurd (hhidden '@' (by rw [hafter]; simp)) (by decide)
  exact ⟨hplace, hsize, after, row, h, (h.shown hvisible).1⟩

/-- A no-break space at the end of a line is stray, and the report about it does not show it. -/
theorem trailing_white_space_hidden :
    ⟨.unexpectedCharacter '\u00a0', 1⟩ ∈ (scan "\u00a0").diagnostics ∧
      (⟨.unexpectedCharacter '\u00a0', 1⟩ : Diagnostic).sourceRow? "\u00a0" = some "1 |" ∧
      '\u00a0' ∉ Diagnostic.printedSource ⟨.unexpectedCharacter '\u00a0', 1⟩ "1 |" := by
  decide +kernel

end LoxScan
