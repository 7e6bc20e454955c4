/-
The rows of a report.

* `IsRows` — the rows of which a text consists, each ended by a newline;
* `IsRows.unique` — a text has only one list of rows;
* `Diagnostic.isRows_report` — nothing that a report shows holds a newline, so it has its own rows
  and no others;
* `Framed` — which rows a report has, and the columns of the bars;
* `report_framed` — every report has this frame, and those of a scan have five rows each, if its
  lines can be counted;
* `uncounted_line_not_shown`, `uncounted_line_lacks_row` — a report about a line that cannot.

Design notes: a column is counted from zero, as an index in the row.  The number of the line takes as
many columns as it has digits, and one blank follows it in all rows.
-/
import Mathlib.Data.Nat.Log
import LoxScan.Proofs.LineEndings
import LoxScan.Proofs.Report

namespace LoxScan

/-! ### Rows of a text -/

/-- The text consists of these rows, each ended by a newline. -/
structure IsRows (s : String) (rows : List (List Char)) : Prop where
  toList_eq : s.toList = rows.flatMap fun row => row ++ ['\n']
  newline_not_mem : ∀ row ∈ rows, '\n' ∉ row

namespace IsRows

/-- A text has only one list of rows. -/
theorem unique {s : String} {rows others : List (List Char)} (h : IsRows s rows)
    (h' : IsRows s others) : rows = others := by
  refine flatMap_inj (P := fun row => '\n' ∉ row) ?_ ?_ h.newline_not_mem h'.newline_not_mem
    (h.toList_eq.symm.trans h'.toList_eq)
  · intro row _
    exact List.append_ne_nil_of_right_ne_nil row (List.cons_ne_nil _ _)
  · intro row other s t hrow hother heq
    rw [List.append_assoc, List.append_assoc] at heq
    exact append_cons_inj hrow hother heq

/-- Texts one behind the other have the rows of all of them. -/
theorem join {α : Type} {f : α → String} {rows : α → List (List Char)} {as : List α}
    (h : ∀ a ∈ as, IsRows (f a) (rows a)) : IsRows (String.join (as.map f)) (as.flatMap rows) := by
  constructor
  · rw [String.toList_join, List.flatMap_map, List.flatMap_assoc, List.flatMap_def,
      List.flatMap_def, List.map_congr_left fun a ha => (h a ha).toList_eq]
  · intro row hrow
    obtain ⟨a, ha, hmem⟩ := List.mem_flatMap.mp hrow
    exact (h a ha).newline_not_mem row hmem

end IsRows

/-! ### Texts without newlines -/

theorem newline_not_mem_append {s t : String} (hs : '\n' ∉ s.toList) (ht : '\n' ∉ t.toList) :
    '\n' ∉ (s ++ t).toList := by
  rw [String.toList_append, List.mem_append, not_or]
  exact ⟨hs, ht⟩

theorem newline_not_mem_repr (n : ℕ) : '\n' ∉ n.repr.toList := by
  rw [Nat.toList_repr]
  exact not_mem_toDigits_ten rfl n

theorem not_mem_replicate_blank {c : Char} (hc : c ≠ ' ') (n : ℕ) : c ∉ List.replicate n ' ' := by
  intro hmem
  exact hc (List.eq_of_mem_replicate hmem)

namespace Fault

theorem newline_not_mem_message (f : Fault) : '\n' ∉ f.message.toList := by
  cases f with
  | unexpectedCharacter c =>
    have htext : '\n' ∉ "Unexpected character".toList := by decide +kernel
    exact htext
  | unterminatedString =>
    have htext : '\n' ∉ "Unterminated string".toList := by decide +kernel
    exact htext
  | unreadableNumber text =>
    rw [toList_message_unreadableNumber, List.mem_append, not_or]
    exact ⟨by decide +kernel, newline_not_mem_quote text.toList⟩

theorem newline_not_mem_tip {f : Fault} {tip : String} (h : f.tip? = some tip) :
    '\n' ∉ tip.toList := by
  cases f with
  | unexpectedCharacter c =>
    obtain rfl := Option.some.inj h
    refine newline_not_mem_append (newline_not_mem_append (by decide +kernel) ?_) (by decide +kernel)
    rw [String.toList_ofList]
    exact (escaped_escape c).newline_not_mem
  | unterminatedString =>
    obtain rfl := Option.some.inj h
    decide +kernel
  | unreadableNumber text => exact absurd h (Option.some_ne_none tip).symm

theorem isSome_tip?_iff (f : Fault) : f.tip?.isSome = true ↔ ∀ text, f ≠ .unreadableNumber text := by
  cases f with
  | unexpectedCharacter c => simp [tip?]
  | unterminatedString => simp [tip?]
  | unreadableNumber text => simp [tip?]

end Fault

/-! ### The rows of a report -/

/-- How many digits a number has. -/
def digitCount (n : ℕ) : ℕ := Nat.log 10 n + 1

theorem length_toDigits (n : ℕ) : (Nat.toDigits 10 n).length = digitCount n := by
  have hone : 1 < 10 := by omega
  apply Nat.le_antisymm
  · exact (Nat.length_toDigits_le_iff hone (Nat.succ_pos _)).mpr (Nat.lt_pow_succ_log_self hone n)
  · have hpos : 0 < (Nat.toDigits 10 n).length := List.length_pos_iff.mpr Nat.toDigits_ne_nil
    have hlt := (Nat.length_toDigits_le_iff hone hpos).mp le_rfl
    rcases Nat.eq_zero_or_pos n with rfl | hn
    · rw [digitCount, Nat.log_zero_right]
      exact hpos
    · exact Nat.log_lt_of_lt_pow hn.ne' hlt

/-- What is shown of a line: the piece between two newlines without the white space at its end. -/
theorem shownLine?_eq {s : List Char} {n : ℕ} (h : 1 ≤ n) :
    shownLine? s n = (s.splitOn '\n')[n - 1]?.map (dropEndWhile Unicode.isWhiteSpace) := by
  obtain ⟨k, rfl⟩ := Nat.exists_eq_add_of_le' h
  rw [shownLine?, lineAt?, Option.map_map, Nat.add_sub_cancel]
  congr 1
  funext line
  exact dropEndWhile_dropFinal (by decide) line

namespace Diagnostic

variable (d : Diagnostic) (source file : String)

/-- The column of the bars: behind the digits of the line and a blank. -/
def barColumn : ℕ := digitCount d.line.toNat + 1

theorem toList_label : d.label.toList = Nat.toDigits 10 d.line.toNat := Nat.toList_repr

theorem toList_margin : d.margin.toList = List.replicate d.barColumn ' ' := by
  have hlength : d.label.length = digitCount d.line.toNat := by
    rw [← String.length_toList, toList_label, length_toDigits]
  rw [margin, String.toList_ofList, hlength, barColumn]

theorem newline_not_mem_margin : '\n' ∉ d.margin.toList := by
  rw [toList_margin]
  exact not_mem_replicate_blank (by decide) _

theorem newline_not_mem_display : '\n' ∉ d.display.toList := by
  refine newline_not_mem_append (newline_not_mem_append (newline_not_mem_append ?_ ?_) ?_)
    d.fault.newline_not_mem_message
  · decide +kernel
  · exact newline_not_mem_repr _
  · decide +kernel

/-- What stands behind the bar. -/
def behindBar (shown : List Char) : List Char := if shown = [] then [] else ' ' :: shown

theorem toList_sourceRow (shown : List Char) :
    (if String.ofList shown = "" then d.label ++ " |"
      else d.label ++ " | " ++ String.ofList shown).toList =
        (Nat.toDigits 10 d.line.toNat ++ [' ']) ++ '|' :: behindBar shown := by
  rw [behindBar, List.append_assoc]
  by_cases hshown : shown = []
  · rw [if_pos (by rw [hshown]), if_pos hshown, String.toList_append, toList_label]
    rfl
  · have hne : String.ofList shown ≠ "" := by
      intro heq
      exact hshown (by rw [← String.toList_ofList (l := shown), heq, String.toList_empty])
    rw [if_neg hne, if_neg hshown]
    simp only [String.toList_append, toList_label, String.toList_ofList, List.append_assoc]
    rfl

/-- **The row of the source**: the number of the line, the bar, and what is shown of the line. -/
theorem exists_of_mem_sourceRow {row : List Char}
    (h : row ∈ (d.sourceRow? source).map String.toList) :
    ∃ piece, (source.toList.splitOn '\n')[d.line.toNat - 1]? = some piece ∧
      row = (Nat.toDigits 10 d.line.toNat ++ [' ']) ++ '|' ::
        behindBar (dropEndWhile Unicode.isWhiteSpace piece) := by
  obtain ⟨text, htext, rfl⟩ := Option.map_eq_some_iff.mp h
  rw [sourceRow?_eq] at htext
  rcases Nat.eq_zero_or_pos d.line.toNat with hzero | hpos
  · rw [hzero] at htext
    exact absurd htext (Option.some_ne_none text).symm
  · rw [shownLine?_eq hpos, Option.map_map] at htext
    obtain ⟨piece, hpiece, rfl⟩ := Option.map_eq_some_iff.mp htext
    exact ⟨piece, hpiece, d.toList_sourceRow _⟩

theorem isSome_sourceRow?_iff :
    (d.sourceRow? source).isSome = true ↔
      1 ≤ d.line.toNat ∧ d.line.toNat ≤ 1 + source.toList.count '\n' := by
  have hlength := length_splitOn_newline source.toList
  rw [sourceRow?_eq, Option.isSome_map]
  rcases Nat.eq_zero_or_pos d.line.toNat with hzero | hpos
  · rw [hzero]
    exact iff_of_false Bool.false_ne_true (by omega)
  · rw [shownLine?_eq hpos, Option.isSome_map, Option.isSome_iff_ne_none, ne_eq,
      List.getElem?_eq_none_iff]
    omega

theorem newline_not_mem_sourceRow {row : List Char}
    (h : row ∈ (d.sourceRow? source).map String.toList) : '\n' ∉ row := by
  obtain ⟨piece, hpiece, hrow⟩ := d.exists_of_mem_sourceRow source h
  have hnone : '\n' ∉ piece := not_mem_of_mem_splitOn (List.mem_of_getElem? hpiece)
  have hshown : '\n' ∉ dropEndWhile Unicode.isWhiteSpace piece := by
    intro hmem
    rw [dropEndWhile_eq_rdropWhile] at hmem
    exact hnone ((List.rdropWhile_prefix _ _).mem hmem)
  have hbehind : '\n' ∉ behindBar (dropEndWhile Unicode.isWhiteSpace piece) := by
    rw [behindBar]
    split
    · exact List.not_mem_nil
    · rw [List.mem_cons, not_or]
      exact ⟨by decide, hshown⟩
  rw [hrow, ← Nat.toList_repr, List.mem_append, List.mem_append, List.mem_singleton, List.mem_cons,
    not_or, not_or, not_or]
  exact ⟨⟨newline_not_mem_repr _, by decide⟩, by decide, hbehind⟩

theorem newline_not_mem_tipRow {row : String} (h : d.tipRow? = some row) : '\n' ∉ row.toList := by
  obtain ⟨tip, htip, rfl⟩ := Option.map_eq_some_iff.mp h
  refine newline_not_mem_append (newline_not_mem_append d.newline_not_mem_margin ?_)
    (Fault.newline_not_mem_tip htip)
  decide +kernel

/-- **The rows of a report**: nothing that is shown in a row ends it. -/
theorem isRows_report (hfile : '\n' ∉ file.toList) :
    IsRows (d.report source file) ((d.rows source file).map String.toList) := by
  constructor
  · rw [toList_report, List.flatMap_map]
  · intro row hrow
    obtain ⟨text, htext, rfl⟩ := List.mem_map.mp hrow
    rw [rows, List.mem_append, List.mem_append, Option.mem_toList, Option.mem_toList] at htext
    rcases htext with (hfirst | hsource) | htip
    · simp only [List.mem_cons, List.not_mem_nil, or_false] at hfirst
      rcases hfirst with rfl | rfl | rfl
      · exact d.newline_not_mem_display
      · exact newline_not_mem_append (by decide +kernel) hfile
      · exact newline_not_mem_append d.newline_not_mem_margin (by decide +kernel)
    · exact d.newline_not_mem_sourceRow source (Option.mem_map_of_mem _ hsource)
    · exact d.newline_not_mem_tipRow htip

end Diagnostic

/-! ### The frame -/

/-- The first `mark` of a row stands in a column. -/
def MarkAt (mark : Char) (column : ℕ) (row : List Char) : Prop :=
  row[column]? = some mark ∧ mark ∉ row.take column

theorem markAt_append {mark : Char} {front : List Char} (h : mark ∉ front) (rest : List Char) :
    MarkAt mark front.length (front ++ mark :: rest) := by
  constructor
  · rw [List.getElem?_append_right le_rfl, Nat.sub_self]
    rfl
  · rw [List.take_left]
    exact h

/-- The frame of a report: the statement, the file, the bar, the line of the source if the source
has that line, and the tip if there is one. -/
structure Framed (d : Diagnostic) (source file : String) (sourceRow? tipRow? : Option (List Char)) :
    Prop where
  isRows : IsRows (d.report source file)
    ([d.display.toList, ("-> " ++ file).toList, List.replicate d.barColumn ' ' ++ ['|']] ++
      sourceRow?.toList ++ tipRow?.toList)
  isSome_sourceRow?_iff : sourceRow?.isSome = true ↔
    1 ≤ d.line.toNat ∧ d.line.toNat ≤ 1 + source.toList.count '\n'
  isSome_tipRow?_iff : tipRow?.isSome = true ↔ ∀ text, d.fault ≠ .unreadableNumber text
  /-- The row of the source has its bar below the other one. -/
  sourceRow_bar : ∀ row ∈ sourceRow?, MarkAt '|' d.barColumn row
  /-- It does not end in white space. -/
  sourceRow_last : ∀ row ∈ sourceRow?, ∀ c ∈ row.getLast?, Unicode.isWhiteSpace c = false
  /-- Behind the bar it shows the line without the white space at its end. -/
  sourceRow_shown : ∀ row ∈ sourceRow?, ∃ piece,
    (source.toList.splitOn '\n')[d.line.toNat - 1]? = some piece ∧
      row.drop (d.barColumn + 1) =
        Diagnostic.behindBar (dropEndWhile Unicode.isWhiteSpace piece)
  /-- The row of the tip has its sign below the bars, and only blanks in front of it. -/
  tipRow_sign : ∀ row ∈ tipRow?, MarkAt '=' d.barColumn row ∧
    row.take d.barColumn = List.replicate d.barColumn ' '

namespace Diagnostic

variable (d : Diagnostic) (source : String)

theorem length_front : (Nat.toDigits 10 d.line.toNat ++ [' ']).length = d.barColumn := by
  rw [List.length_append, length_toDigits, List.length_singleton, barColumn]

theorem bar_not_mem_front : '|' ∉ Nat.toDigits 10 d.line.toNat ++ [' '] := by
  rw [List.mem_append, List.mem_singleton, not_or]
  exact ⟨not_mem_toDigits_ten rfl _, by decide⟩

/-- White space at the end of a line is not shown, and the bar is none. -/
theorem getLast?_behindBar {front shown : List Char}
    (h : ∀ c, shown.getLast? = some c → Unicode.isWhiteSpace c = false) :
    ∀ c ∈ (front ++ '|' :: behindBar shown).getLast?, Unicode.isWhiteSpace c = false := by
  intro c hc
  rw [behindBar] at hc
  split at hc
  · rw [List.getLast?_concat, Option.mem_some_iff] at hc
    rw [← hc]
    decide
  · next hne =>
    rw [List.append_cons, List.append_cons, List.getLast?_append,
      List.getLast?_eq_some_getLast hne, Option.some_or] at hc
    exact h c ((List.getLast?_eq_some_getLast hne).trans hc)

theorem toList_tipRow {tip : String} :
    (d.margin ++ "= " ++ tip).toList = List.replicate d.barColumn ' ' ++ '=' :: ' ' :: tip.toList := by
  rw [String.toList_append, String.toList_append, toList_margin, List.append_assoc]
  rfl

/-- **Every report is framed.** -/
theorem framed {file : String} (hfile : '\n' ∉ file.toList) :
    Framed d source file ((d.sourceRow? source).map String.toList)
      (d.tipRow?.map String.toList) where
  isRows := by
    have hrows := d.isRows_report source file hfile
    have hbar : (d.margin ++ "|").toList = List.replicate d.barColumn ' ' ++ ['|'] := by
      rw [String.toList_append, toList_margin]
      rfl
    rw [rows, List.map_append, List.map_append, ← Option.toList_map, ← Option.toList_map,
      List.map_cons, List.map_cons, List.map_singleton, hbar] at hrows
    exact hrows
  isSome_sourceRow?_iff := by
    rw [Option.isSome_map]
    exact d.isSome_sourceRow?_iff source
  isSome_tipRow?_iff := by
    rw [Option.isSome_map, tipRow?, Option.isSome_map]
    exact d.fault.isSome_tip?_iff
  sourceRow_bar := by
    intro row hrow
    obtain ⟨piece, _, rfl⟩ := d.exists_of_mem_sourceRow source hrow
    rw [← length_front]
    exact markAt_append d.bar_not_mem_front _
  sourceRow_last := by
    intro row hrow
    obtain ⟨piece, _, rfl⟩ := d.exists_of_mem_sourceRow source hrow
    exact getLast?_behindBar (getLast?_dropEndWhile _ _)
  sourceRow_shown := by
    intro row hrow
    obtain ⟨piece, hfound, rfl⟩ := d.exists_of_mem_sourceRow source hrow
    refine ⟨piece, hfound, ?_⟩
    rw [← length_front, ← List.drop_drop, List.drop_left]
    rfl
  tipRow_sign := by
    intro row hrow
    obtain ⟨text, htext, rfl⟩ := Option.map_eq_some_iff.mp hrow
    obtain ⟨tip, _, rfl⟩ := Option.map_eq_some_iff.mp htext
    have hsign : '=' ∉ List.replicate d.barColumn ' ' := not_mem_replicate_blank (by decide) _
    have hmark := markAt_append hsign (' ' :: tip.toList)
    rw [List.length_replicate] at hmark
    rw [toList_tipRow]
    exact ⟨hmark, List.take_left' List.length_replicate⟩

end Diagnostic

/-! ### The reports of a scan -/

/-- The lines of a scan count from one, unless its counter starts anew. -/
theorem LinesFit.line_ne_zero {source : String} (hfit : LinesFit source) {d : Diagnostic}
    (h : d ∈ (scan source).diagnostics) : d.line ≠ 0 := by
  obtain ⟨line, hline⟩ := hfit.getLine?_diagnostic h
  intro hzero
  rw [hzero] at hline
  exact absurd hline (Option.some_ne_none line).symm

/-- A diagnostic of a scan has all of its rows, but that there is no line zero. -/
theorem length_rows_of_mem_diagnostics {source : String} {d : Diagnostic}
    (h : d ∈ (scan source).diagnostics) (file : String) :
    ((d.rows source file).map String.toList).length = if d.line = 0 then 4 else 5 := by
  have htip : d.tipRow?.isSome = true := by
    rw [Diagnostic.tipRow?, Option.isSome_map, d.fault.isSome_tip?_iff]
    exact fault_ne_unreadableNumber h
  have hsource := d.isSome_sourceRow?_iff source
  have hle := line_le_of_mem_diagnostics h
  obtain ⟨tip, htip⟩ := Option.isSome_iff_exists.mp htip
  rw [Diagnostic.rows, htip]
  split
  · next hzero =>
    have hnone : d.sourceRow? source = none := by
      rw [← Option.not_isSome_iff_eq_none, hsource, hzero]
      exact fun hpos => absurd hpos.1 (by decide)
    rw [hnone]
    rfl
  · next hne =>
    have hpos : 1 ≤ d.line.toNat := by
      rw [← UInt32.toNat_inj] at hne
      exact Nat.pos_of_ne_zero hne
    obtain ⟨row, hrow⟩ := Option.isSome_iff_exists.mp (hsource.mpr ⟨hpos, hle⟩)
    rw [hrow]
    rfl

/-- Diagnostics of a scan have five rows each, less one for each on line zero. -/
theorem length_flatMap_rows {source : String} (file : String) {ds : List Diagnostic}
    (h : ∀ d ∈ ds, d ∈ (scan source).diagnostics) :
    (ds.flatMap fun d => (d.rows source file).map String.toList).length +
      ds.countP (fun d => d.line = 0) = 5 * ds.length := by
  induction ds with
  | nil => rfl
  | cons d ds ih =>
    obtain ⟨hd, hds⟩ := List.forall_mem_cons.mp h
    have hrest := ih hds
    have hfirst := length_rows_of_mem_diagnostics hd file
    rw [List.flatMap_cons, List.length_append, List.countP_cons, List.length_cons, hfirst]
    by_cases hzero : d.line = 0
    · simp only [hzero, decide_true, if_true]
      omega
    · simp only [hzero, decide_false, if_false, Bool.false_eq_true]
      omega

/-- There is no line zero, so a report about it does not depend on the source. -/
theorem Diagnostic.report_eq_of_line_zero {d : Diagnostic} (h : d.line = 0)
    (source other file : String) : d.report source file = d.report other file := by
  have hnone : ∀ s, d.sourceRow? s = none := by
    intro s
    rw [sourceRow?, h]
    rfl
  rw [report, rows, hnone source, report, rows, hnone other]

/-- The rows on standard error are those of the reports. -/
theorem exists_rows_err (source : String) {file : String} (hfile : '\n' ∉ file.toList) :
    ∃ rows, IsRows (Printed.ofScan (scan source) source file).err rows ∧
      rows.length + (scan source).diagnostics.countP (fun d => d.line = 0) =
        5 * (scan source).diagnostics.length :=
  ⟨_, IsRows.join fun d _ => d.isRows_report source file hfile,
    length_flatMap_rows file fun _ hd => hd⟩

/-- **A report keeps its frame**, whatever the diagnostic and the source hold.  Every diagnostic of a
scan has five rows, and a scan with `m` of them prints five times `m`.  Only behind as many newlines
as the counter of lines can count a line is zero, and has no row. -/
theorem report_framed :
    (∀ (d : Diagnostic) (source file : String), '\n' ∉ file.toList →
      ∃ sourceRow? tipRow?, Framed d source file sourceRow? tipRow?) ∧
    ∀ source file : String, '\n' ∉ file.toList →
      (∀ d ∈ (scan source).diagnostics, ∃ rows, IsRows (d.report source file) rows ∧
        rows.length = if d.line = 0 then 4 else 5) ∧
      (∃ rows, IsRows (Printed.ofScan (scan source) source file).err rows ∧
        rows.length + (scan source).diagnostics.countP (fun d => d.line = 0) =
          5 * (scan source).diagnostics.length) ∧
      (LinesFit source →
        (∀ d ∈ (scan source).diagnostics,
          ∃ rows, IsRows (d.report source file) rows ∧ rows.length = 5) ∧
        ∃ rows, IsRows (Printed.ofScan (scan source) source file).err rows ∧
          rows.length = 5 * (scan source).diagnostics.length) := by
  refine ⟨fun d source file hfile => ⟨_, _, d.framed source hfile⟩, fun source file hfile => ?_⟩
  have hreport : ∀ d ∈ (scan source).diagnostics, ∃ rows, IsRows (d.report source file) rows ∧
      rows.length = if d.line = 0 then 4 else 5 := fun d hd =>
    ⟨_, d.isRows_report source file hfile, length_rows_of_mem_diagnostics hd file⟩
  refine ⟨hreport, exists_rows_err source hfile, fun hfit => ⟨fun d hd => ?_, ?_⟩⟩
  · obtain ⟨rows, hrows, hlength⟩ := hreport d hd
    rw [if_neg (hfit.line_ne_zero hd)] at hlength
    exact ⟨rows, hrows, hlength⟩
  · obtain ⟨rows, hrows, hlength⟩ := exists_rows_err source hfile
    have hnone : (scan source).diagnostics.countP (fun d => d.line = 0) = 0 := by
      rw [List.countP_eq_zero]
      intro d hd
      simpa using hfit.line_ne_zero hd
    rw [hnone, Nat.add_zero] at hlength
    exact ⟨rows, hrows, hlength⟩

/-- Two stray characters, one of them on an otherwise empty line. -/
theorem report_framed_strays :
    (∃ sourceRow? tipRow?,
        Framed ⟨.unreadableNumber "\n|", 10⟩ "" "<prompt>" sourceRow? tipRow?) ∧
      LinesFit "a @\n#" ∧
      ∃ rows, IsRows (Printed.ofScan (scan "a @\n#") "a @\n#" "<prompt>").err rows ∧
        rows.length = 10 := by
  have hfile : '\n' ∉ "<prompt>".toList := by decide +kernel
  have hfit : LinesFit "a @\n#" := by decide +kernel
  have htwo : (scan "a @\n#").diagnostics.length = 2 := by decide +kernel
  obtain ⟨rows, hrows, hlength⟩ := ((report_framed.2 "a @\n#" "<prompt>" hfile).2.2 hfit).2
  rw [htwo] at hlength
  exact ⟨report_framed.1 _ _ _ hfile, hfit, rows, hrows, hlength⟩

/-- A stray character behind so many newlines. -/
def strayBehindNewlines (n : ℕ) : String := String.ofList (List.replicate n '\n' ++ ['@'])

/-- Behind as many newlines as start the counter anew, a report shows no line at all. -/
theorem uncounted_line_not_shown {n : ℕ} (hn : UInt32.ofNat (1 + n) = 0) :
    (scan (strayBehindNewlines n)).diagnostics = [⟨.unexpectedCharacter '@', 0⟩] ∧
      (⟨.unexpectedCharacter '@', 0⟩ : Diagnostic).sourceRow? (strayBehindNewlines n) = none := by
  have hcut : cut ['@'] = [.stray '@'] := by decide +kernel
  have hline : (1 : UInt32) + UInt32.ofNat n = 0 := by
    rw [← hn, UInt32.ofNat_add]
    rfl
  refine ⟨?_, rfl⟩
  rw [Scan.diagnostics, scan_events, strayBehindNewlines, String.toList_ofList,
    eventsFrom_cut_newlines, hline, hcut]
  rfl

/-- Such a report has one row less than the others of a scan, and so has standard error. -/
theorem lacks_row_of_uncounted_line {n : ℕ} (hn : UInt32.ofNat (1 + n) = 0) {file : String}
    (hfile : '\n' ∉ file.toList) :
    (¬ ∃ rows, IsRows ((⟨.unexpectedCharacter '@', 0⟩ : Diagnostic).report
        (strayBehindNewlines n) file) rows ∧ rows.length = 5) ∧
      ¬ ∃ rows, IsRows (Printed.ofScan (scan (strayBehindNewlines n)) (strayBehindNewlines n)
          file).err rows ∧
        rows.length = 5 * (scan (strayBehindNewlines n)).diagnostics.length := by
  obtain ⟨hscan, _⟩ := uncounted_line_not_shown hn
  constructor
  · rintro ⟨rows, hrows, hlength⟩
    have hmem : ⟨.unexpectedCharacter '@', 0⟩ ∈ (scan (strayBehindNewlines n)).diagnostics := by
      rw [hscan]
      exact List.mem_singleton_self _
    have hfour := length_rows_of_mem_diagnostics hmem file
    rw [(Diagnostic.isRows_report _ _ _ hfile).unique hrows, hlength] at hfour
    exact absurd hfour (by decide)
  · rintro ⟨rows, hrows, hlength⟩
    obtain ⟨others, hothers, hcount⟩ := exists_rows_err (strayBehindNewlines n) hfile
    rw [hothers.unique hrows, hlength, hscan] at hcount
    exact absurd hcount (by decide)

/-- The counter has 32 bits.  Behind `2 ^ 32 - 1` newlines the line of a fault is zero, and neither
the report nor standard error has all of its rows. -/
theorem uncounted_line_lacks_row :
    '\n' ∉ "f".toList ∧
      (scan (strayBehindNewlines 4294967295)).diagnostics = [⟨.unexpectedCharacter '@', 0⟩] ∧
      (⟨.unexpectedCharacter '@', 0⟩ : Diagnostic).report (strayBehindNewlines 4294967295) "f" =
        "[line 0] Error: Unexpected character\n-> f\n  |\n  = `@` does not start any token\n" ∧
      (¬ ∃ rows, IsRows ((⟨.unexpectedCharacter '@', 0⟩ : Diagnostic).report
          (strayBehindNewlines 4294967295) "f") rows ∧ rows.length = 5) ∧
      ¬ ∃ rows, IsRows (Printed.ofScan (scan (strayBehindNewlines 4294967295))
          (strayBehindNewlines 4294967295) "f").err rows ∧
        rows.length = 5 * (scan (strayBehindNewlines 4294967295)).diagnostics.length := by
  have hn : UInt32.ofNat (1 + 4294967295) = 0 := by decide
  have hfile : '\n' ∉ "f".toList := by decide +kernel
  obtain ⟨hreport, herr⟩ := lacks_row_of_uncounted_line hn hfile
  refine ⟨hfile, (uncounted_line_not_shown hn).1, ?_, hreport, herr⟩
  rw [Diagnostic.report_eq_of_line_zero rfl _ ""]
  decide +kernel

end LoxScan
