/-
The lines that a scan counts are the lines that a report shows.

* `lineAround` — the line of a text that goes through a position;
* `lineAt?_append_of_le`, `lineAt?_append_of_lt` — a newline divides the lines of a text into those
  before it and those behind it;
* `lineAt?_lineAround` — the line that goes through a position has the number that counting newlines
  gives;
* `LinesShown` — what it means that the lines of a scan are those of the source;
* `scan_linesShown` — they are, for every source whose lines fit, so every report has its source row.
-/
import Mathlib.Data.List.TakeWhile
import LoxScan.Diagnostic.Report
import LoxScan.Proofs.Lines

namespace LoxScan

/-! ### Lines by their numbers -/

theorem length_splitOn_newline (s : List Char) :
    (s.splitOn '\n').length = 1 + s.count '\n' := by
  induction s with
  | nil => rfl
  | cons c s ih =>
    rw [List.splitOn_cons_eq_if_modifyHead]
    by_cases h : c = '\n'
    · simp [h, ih, Nat.add_comm]
    · simp [h, ih]

/-- The lines before a newline. -/
theorem lineAt?_append_of_le {s : List Char} {n : Nat} (h : n ≤ 1 + s.count '\n') (t : List Char) :
    lineAt? (s ++ '\n' :: t) n = lineAt? s n := by
  cases n with
  | zero => rfl
  | succ n =>
    rw [lineAt?, lineAt?, List.splitOn_append_cons_self, List.getElem?_append_left]
    rw [length_splitOn_newline]
    omega

/-- The lines behind a newline. -/
theorem lineAt?_append_of_lt {s : List Char} {n : Nat} (h : 1 + s.count '\n' < n) (t : List Char) :
    lineAt? (s ++ '\n' :: t) n = lineAt? t (n - (1 + s.count '\n')) := by
  obtain ⟨k, rfl⟩ := Nat.exists_eq_add_of_lt h
  have hlength := length_splitOn_newline s
  have hindex : 1 + s.count '\n' + k + 1 - (1 + s.count '\n') = k + 1 := by omega
  rw [hindex, lineAt?, lineAt?, List.splitOn_append_cons_self,
    List.getElem?_append_right (by omega), hlength]
  congr 3
  omega

/-- There is no line behind the last one. -/
theorem lineAt?_eq_none {s : List Char} {n : Nat} (h : 1 + s.count '\n' < n) :
    lineAt? s n = none := by
  cases n with
  | zero => rfl
  | succ n =>
    have hlength := length_splitOn_newline s
    rw [lineAt?, List.getElem?_eq_none (by omega), Option.map_none]

/-- The first line ends before the first newline. -/
theorem lineAt?_one (s : List Char) :
    lineAt? s 1 = some (dropFinal '\r' (s.takeWhile (· != '\n'))) := by
  have hsingle : ∀ {line : List Char}, '\n' ∉ line → lineAt? line 1 = some (dropFinal '\r' line) := by
    intro line hline
    rw [lineAt?, List.splitOn_eq_singleton hline]
    rfl
  by_cases hmem : '\n' ∈ s
  · obtain ⟨line, rest, rfl, hline⟩ := List.eq_append_cons_of_mem hmem
    rw [lineAt?_append_of_le (Nat.le_add_right 1 _), hsingle hline,
      takeWhile_run (bne_of_not_mem hline) (stops_at rfl rest)]
  · rw [hsingle hmem, List.takeWhile_eq_self_iff.mpr (bne_of_not_mem hmem)]

/-! ### Lines by their places -/

/-- The line of the text that goes through a position: what stands between the last newline before
the position and the first one at it or behind it, without a carriage return at the end. -/
def lineAround (s : List Char) (position : Nat) : List Char :=
  dropFinal '\r' (((s.take position).reverse.takeWhile (· != '\n')).reverse ++
    (s.drop position).takeWhile (· != '\n'))

theorem lineAround_append (before after : List Char) :
    lineAround (before ++ after) before.length =
      dropFinal '\r' ((before.reverse.takeWhile (· != '\n')).reverse ++
        after.takeWhile (· != '\n')) := by
  rw [lineAround, List.take_left, List.drop_left]

/-- **The line through a position** has one more than the newlines before it as its number. -/
theorem lineAt?_lineAround (before after : List Char) :
    lineAt? (before ++ after) (1 + before.count '\n') =
      some (lineAround (before ++ after) before.length) := by
  rw [lineAround_append]
  by_cases hmem : '\n' ∈ before.reverse
  · -- behind the last newline the line is the first one of a text of its own
    obtain ⟨line, earlier, hreverse, hline⟩ := List.eq_append_cons_of_mem hmem
    have hbefore : before = earlier.reverse ++ '\n' :: line.reverse := by
      rw [← List.reverse_reverse before, hreverse]
      simp
    have hlast : '\n' ∉ line.reverse := by simpa using hline
    have hcount : before.count '\n' = 1 + earlier.reverse.count '\n' := by
      rw [hbefore, List.count_append, List.count_cons_self, List.count_eq_zero_of_not_mem hlast]
      omega
    have hfirst : (line.reverse ++ after).takeWhile (· != '\n') =
        line.reverse ++ after.takeWhile (· != '\n') :=
      List.takeWhile_append_of_pos (bne_of_not_mem hlast)
    rw [hreverse, takeWhile_run (bne_of_not_mem hline) (stops_at rfl earlier), hcount, hbefore,
      List.append_assoc, List.cons_append, lineAt?_append_of_lt (by omega), Nat.add_sub_cancel,
      lineAt?_one, hfirst]
  · have hbefore : '\n' ∉ before := by simpa using hmem
    rw [List.count_eq_zero_of_not_mem hbefore, Nat.add_zero, lineAt?_one,
      List.takeWhile_append_of_pos (bne_of_not_mem hbefore),
      List.takeWhile_eq_self_iff.mpr (bne_of_not_mem hmem), List.reverse_reverse]

/-! ### The lines of a scan -/

section

variable {source : String} (hfit : LinesFit source)

include hfit

/-- The line behind a part of the source is the one that goes through its end. -/
theorem LinesFit.getLine?_lineBehind {before : List Char} (h : before <+: source.toList) :
    getLine? source (lineBehind before) =
      some (String.ofList (lineAround source.toList before.length)) := by
  have hline := hfit.toNat_lineBehind h
  obtain ⟨after, hsource⟩ := h
  rw [getLine?, hline, ← hsource, lineAt?_lineAround, Option.map_some]

theorem LinesFit.getLine?_diagnostic {d : Diagnostic} (h : d ∈ (scan source).diagnostics) :
    ∃ line, getLine? source d.line = some line := by
  obtain ⟨p, hp, _, hline⟩ := exists_placed_of_mem_diagnostics h
  rw [hline]
  exact ⟨_, hfit.getLine?_lineBehind (prefix_of_mem_placed hp)⟩

end

/-- A stray character is reported on the line on which it begins, as it is no newline. -/
theorem Placed.line_of_unexpected {source : List Char} {p : Placed} (hp : p ∈ placed source)
    {c : Char} {line : UInt32} (h : p.diagnostic? = some ⟨.unexpectedCharacter c, line⟩) :
    p.element = .stray c ∧ line = lineBehind p.before := by
  obtain ⟨hbreaks, hline⟩ := Placed.diagnostic?_eq_some h
  have hstray : p.element = .stray c := hbreaks.eq_stray
  have hcount : (Element.stray c).newlines = 0 := by
    simp [Element.newlines, Element.text, Placed.stray_ne_newline hp hstray]
  rw [hstray, lineBehind_append, hcount] at hline
  exact ⟨hstray, hline.trans (UInt32.add_zero _)⟩

/-- The lines of a scan are those of the source. -/
structure LinesShown (source : String) : Prop where
  /-- The tokens are those of the places, in order, and then the end of the input. -/
  tokens_eq : (scan source).tokens =
    (placed source.toList).filterMap Placed.token? ++ [Token.endOfInput (scan source).lastLine]
  /-- The diagnostics are those of the places, in order. -/
  diagnostics_eq : (scan source).diagnostics = (placed source.toList).filterMap Placed.diagnostic?
  /-- The line of a token goes through its first character. -/
  token_line : ∀ p ∈ placed source.toList, ∀ t, p.token? = some t →
    p.before ++ t.lexeme.toList <+: source.toList ∧
      getLine? source t.line =
        some (String.ofList (lineAround source.toList p.before.length))
  /-- The line of a stray character goes through it. -/
  unexpected_line : ∀ p ∈ placed source.toList, ∀ c line,
    p.diagnostic? = some ⟨.unexpectedCharacter c, line⟩ →
      p.before ++ [c] <+: source.toList ∧
        getLine? source line =
          some (String.ofList (lineAround source.toList p.before.length))
  /-- The line of an open string goes through the end of the source. -/
  unterminated_line : ∀ line, ⟨.unterminatedString, line⟩ ∈ (scan source).diagnostics →
    getLine? source line = some (String.ofList (lineAround source.toList source.length))
  /-- So does the last line. -/
  last_line : getLine? source (scan source).lastLine =
    some (String.ofList (lineAround source.toList source.length))
  /-- Behind it there is no line. -/
  no_later_line : (scan source).lastLine.toNat + 1 < UInt32.size →
    getLine? source ((scan source).lastLine + 1) = none
  /-- The report of a diagnostic has a row with its line of the source. -/
  source_row : ∀ d ∈ (scan source).diagnostics, ∀ file, ∃ row,
    d.sourceRow? source = some row ∧
      d.report source file = String.join
        (([d.display, "-> " ++ file, d.margin ++ "|", row] ++ d.tipRow?.toList).map (· ++ "\n"))

/-- **The lines of a scan are those of the source**, for every source whose lines fit the
counter. -/
theorem scan_linesShown (source : String) (hfit : LinesFit source) : LinesShown source where
  tokens_eq := scan_tokens_eq_placed source
  diagnostics_eq := scan_diagnostics_eq_placed source
  token_line := by
    intro p hp t ht
    obtain ⟨g, hg, rfl⟩ := Placed.token?_eq_some ht
    have hplace := prefix_of_mem_placed hp
    have hlexeme : (g.onLine (lineBehind p.before)).lexeme.toList = p.element.text := by
      rw [Sign.onLine, String.toList_ofList, hg.lexeme_eq]
    rw [hlexeme]
    exact ⟨hplace, hfit.getLine?_lineBehind ((List.prefix_append _ _).trans hplace)⟩
  unexpected_line := by
    intro p hp c line h
    obtain ⟨hstray, rfl⟩ := Placed.line_of_unexpected hp h
    have hplace := prefix_of_mem_placed hp
    rw [hstray] at hplace
    exact ⟨hplace, hfit.getLine?_lineBehind ((List.prefix_append _ _).trans hplace)⟩
  unterminated_line := by
    intro line h
    rw [show line = _ from line_of_unterminated h rfl, ← String.length_toList]
    exact hfit.getLine?_lineBehind (List.prefix_refl _)
  last_line := by
    rw [scan_lastLine_eq, ← String.length_toList]
    exact hfit.getLine?_lineBehind (List.prefix_refl _)
  no_later_line := by
    intro hroom
    have hnext := toNat_add_ofNat hroom
    rw [scan_lastLine_eq, hfit.toNat_lineBehind (List.prefix_refl _)] at hnext
    rw [getLine?, scan_lastLine_eq, show (1 : UInt32) = UInt32.ofNat 1 from rfl, hnext,
      lineAt?_eq_none (Nat.lt_succ_self _), Option.map_none]
  source_row := by
    intro d hd file
    obtain ⟨line, hline⟩ := hfit.getLine?_diagnostic hd
    obtain ⟨row, hrow⟩ : ∃ row, d.sourceRow? source = some row := by
      rw [Diagnostic.sourceRow?, hline]
      exact ⟨_, rfl⟩
    refine ⟨row, hrow, ?_⟩
    rw [Diagnostic.report, Diagnostic.rows, hrow]
    rfl

/-- A line that ends in a carriage return, and a fault behind the last newline. -/
theorem linesShown_of_open_string :
    LinesFit "a @\r\n\"b\n" ∧ LinesShown "a @\r\n\"b\n" ∧
      (scan "a @\r\n\"b\n").diagnostics.map (fun d => getLine? "a @\r\n\"b\n" d.line) =
        [some "a @", some ""] := by
  have hfit : LinesFit "a @\r\n\"b\n" := by decide +kernel
  exact ⟨hfit, scan_linesShown _ hfit, by decide +kernel⟩

end LoxScan
