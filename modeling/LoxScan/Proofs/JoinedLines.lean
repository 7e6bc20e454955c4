/-
The lines of joined texts, and a text from its lines.

* `lineCount`, `lineTexts` — how many lines a source has, and what is found for their numbers;
* `getLine?_append_newline` — a newline between two texts divides the numbers of the lines;
* `restoreReturn`, `intercalate_lineTexts` — the lines give the source back, once those that lost a
  carriage return have it again;
* `LinesCover` — what it means that the lines are the whole source;
* `lines_joined` — they are, and what is shown of a line stays as it is behind a newline.

Design notes: the last piece of a source has no newline behind it, but it loses a carriage return as
the others do.  So two texts are joined piece by piece, and no line is different in the whole.
-/
import Mathlib.Data.List.Basic
import LoxScan.Proofs.ReportRows

namespace LoxScan

/-- How many lines the source has. -/
def lineCount (source : String) : ℕ := 1 + source.toList.count '\n'

/-! ### Two texts -/

theorem toList_append_newline (a b : String) :
    (a ++ "\n" ++ b).toList = a.toList ++ '\n' :: b.toList := by
  rw [String.toList_append, String.toList_append, List.append_assoc]
  rfl

theorem toNat_sub_ofNat {n : UInt32} {k : ℕ} (h : k < n.toNat) :
    (n - UInt32.ofNat k).toNat = n.toNat - k := by
  have hk : (UInt32.ofNat k).toNat = k := UInt32.toNat_ofNat_of_lt' (h.trans n.toNat_lt)
  rw [UInt32.toNat_sub_of_le, hk]
  rw [UInt32.le_iff_toNat_le, hk]
  exact h.le

/-- **A newline divides the lines** into those of the text before it and those of the text behind
it. -/
theorem getLine?_append_newline (a b : String) (n : UInt32) :
    getLine? (a ++ "\n" ++ b) n =
      if n.toNat ≤ lineCount a then getLine? a n
      else getLine? b (n - UInt32.ofNat (lineCount a)) := by
  rw [getLine?, toList_append_newline]
  split
  · next hle => rw [lineAt?_append_of_le hle, getLine?]
  · next hlt =>
    have hlt := Nat.lt_of_not_le hlt
    rw [lineAt?_append_of_lt hlt, getLine?, toNat_sub_ofNat hlt]
    rfl

/-- What is shown of a line stays as it is behind a newline. -/
theorem Diagnostic.sourceRow?_append_newline {d : Diagnostic} {a : String}
    (h : d.line.toNat ≤ lineCount a) (b : String) :
    d.sourceRow? (a ++ "\n" ++ b) = d.sourceRow? a := by
  rw [sourceRow?, getLine?_append_newline, if_pos h, sourceRow?]

theorem Diagnostic.report_append_newline {d : Diagnostic} {a : String}
    (h : d.line.toNat ≤ lineCount a) (b file : String) :
    d.report (a ++ "\n" ++ b) file = d.report a file := by
  rw [report, rows, sourceRow?_append_newline h, report, rows]

/-! ### The whole text -/

/-- What is found for the numbers of the lines, from the first line on. -/
def lineTexts (source : String) : List String :=
  (List.range (lineCount source)).filterMap fun i => getLine? source (UInt32.ofNat (i + 1))

/-- The line, with a carriage return if its piece of the source ends in one. -/
def restoreReturn (piece : List Char) (line : String) : String :=
  if piece.getLast? = some '\r' then line ++ "\r" else line

theorem restoreReturn_dropFinal (piece : List Char) :
    restoreReturn piece (String.ofList (dropFinal '\r' piece)) = String.ofList piece := by
  rw [restoreReturn, dropFinal]
  split
  · next h =>
    obtain ⟨front, rfl⟩ := List.getLast?_eq_some_iff.mp h
    rw [List.dropLast_concat, String.ofList_append]
  · rfl

theorem filterMap_getElem?_range {α : Type} (l : List α) :
    (List.range l.length).filterMap (l[·]?) = l := by
  induction l with
  | nil => rfl
  | cons a l ih =>
    rw [List.length_cons, List.range_succ_eq_map, List.filterMap_cons, List.filterMap_map]
    simpa [Function.comp_def] using ih

/-- The lines are the pieces between the newlines, each without a carriage return at its end. -/
theorem lineTexts_eq {source : String} (hfit : LinesFit source) :
    lineTexts source =
      (source.toList.splitOn '\n').map fun piece => String.ofList (dropFinal '\r' piece) := by
  have hlength := length_splitOn_newline source.toList
  have hline : ∀ i ∈ List.range (lineCount source), getLine? source (UInt32.ofNat (i + 1)) =
      ((source.toList.splitOn '\n').map fun piece => String.ofList (dropFinal '\r' piece))[i]? := by
    intro i hi
    have hnumber : (UInt32.ofNat (i + 1)).toNat = i + 1 := by
      refine UInt32.toNat_ofNat_of_lt' ?_
      rw [List.mem_range, lineCount] at hi
      rw [LinesFit] at hfit
      omega
    rw [getLine?, hnumber, lineAt?, Option.map_map, List.getElem?_map]
    rfl
  rw [lineTexts, List.filterMap_congr hline, lineCount, ← hlength,
    ← List.length_map (f := fun piece => String.ofList (dropFinal '\r' piece))]
  exact filterMap_getElem?_range _

/-- **The lines give the source back.** -/
theorem intercalate_lineTexts {source : String} (hfit : LinesFit source) :
    "\n".intercalate
      (List.zipWith restoreReturn (source.toList.splitOn '\n') (lineTexts source)) = source := by
  have hpieces : List.zipWith restoreReturn (source.toList.splitOn '\n') (lineTexts source) =
      (source.toList.splitOn '\n').map String.ofList := by
    rw [lineTexts_eq hfit, List.zipWith_map_right, List.zipWith_self]
    exact List.map_congr_left fun piece _ => restoreReturn_dropFinal piece
  rw [hpieces, ← String.toList_inj, String.toList_intercalate, List.map_map]
  have hsame : String.toList ∘ String.ofList = id := funext fun s => String.toList_ofList
  rw [hsame, List.map_id]
  exact List.intercalate_splitOn '\n'

theorem isSome_getLine?_iff (source : String) (n : UInt32) :
    (getLine? source n).isSome = true ↔ 1 ≤ n.toNat ∧ n.toNat ≤ lineCount source := by
  have hlength := length_splitOn_newline source.toList
  rw [getLine?, Option.isSome_map]
  cases hn : n.toNat with
  | zero => simp [lineAt?]
  | succ i =>
    rw [lineAt?, Option.isSome_map, Option.isSome_iff_ne_none, ne_eq, List.getElem?_eq_none_iff,
      hlength, lineCount]
    omega

theorem newline_not_mem_getLine? {source line : String} {n : UInt32}
    (h : getLine? source n = some line) : '\n' ∉ line.toList := by
  obtain ⟨text, htext, rfl⟩ := Option.map_eq_some_iff.mp h
  rw [String.toList_ofList]
  cases hn : n.toNat with
  | zero =>
    rw [hn] at htext
    exact absurd htext (Option.some_ne_none text).symm
  | succ i =>
    rw [hn] at htext
    obtain ⟨piece, hpiece, rfl⟩ := Option.map_eq_some_iff.mp htext
    have hnone : '\n' ∉ piece := not_mem_of_mem_splitOn (List.mem_of_getElem? hpiece)
    exact fun hmem => hnone ((dropFinal_sublist '\r' piece).mem hmem)

/-- The lines of a source are the whole source. -/
structure LinesCover (source : String) : Prop where
  /-- There is no line zero. -/
  no_line_zero : getLine? source 0 = none
  /-- There are as many lines as the newlines make, counted from one. -/
  isSome_iff : ∀ n, (getLine? source n).isSome = true ↔ 1 ≤ n.toNat ∧ n.toNat ≤ lineCount source
  /-- No line holds a newline. -/
  newline_not_mem : ∀ n line, getLine? source n = some line → '\n' ∉ line.toList
  /-- Every line has a number, and none is missing. -/
  length_lineTexts : LinesFit source →
    (lineTexts source).length = lineCount source ∧
      (source.toList.splitOn '\n').length = lineCount source
  /-- With newlines between them the lines are the source, once those have a carriage return again
  that stand for a piece with one at its end. -/
  intercalate_eq : LinesFit source →
    "\n".intercalate
      (List.zipWith restoreReturn (source.toList.splitOn '\n') (lineTexts source)) = source

theorem linesCover (source : String) : LinesCover source where
  no_line_zero := rfl
  isSome_iff n := isSome_getLine?_iff source n
  newline_not_mem _ _ h := newline_not_mem_getLine? h
  length_lineTexts hfit := by
    rw [lineTexts_eq hfit, List.length_map]
    exact ⟨length_splitOn_newline _, length_splitOn_newline _⟩
  intercalate_eq hfit := intercalate_lineTexts hfit

/-- **Lines of joined texts**: the lines of two texts with a newline between them are those of the
first and then those of the second, and the lines of a source are the whole source.  So a report on
a source stays the same when a newline and any other text follow the source. -/
theorem lines_joined :
    (∀ (a b : String) (n : UInt32), getLine? (a ++ "\n" ++ b) n =
      if n.toNat ≤ lineCount a then getLine? a n
      else getLine? b (n - UInt32.ofNat (lineCount a))) ∧
    (∀ source, LinesCover source) ∧
    (∀ (d : Diagnostic) (a b file : String), d.line.toNat ≤ lineCount a →
      d.sourceRow? (a ++ "\n" ++ b) = d.sourceRow? a ∧
        d.report (a ++ "\n" ++ b) file = d.report a file) ∧
    ∀ a b file : String, ∀ d ∈ (scan a).diagnostics,
      d.sourceRow? (a ++ "\n" ++ b) = d.sourceRow? a ∧
        d.report (a ++ "\n" ++ b) file = d.report a file := by
  have hreport : ∀ (d : Diagnostic) (a b file : String), d.line.toNat ≤ lineCount a →
      d.sourceRow? (a ++ "\n" ++ b) = d.sourceRow? a ∧
        d.report (a ++ "\n" ++ b) file = d.report a file := fun d a b file hle =>
    ⟨Diagnostic.sourceRow?_append_newline hle b, Diagnostic.report_append_newline hle b file⟩
  refine ⟨getLine?_append_newline, linesCover, hreport, fun a b file d hd => ?_⟩
  exact hreport d a b file (line_le_of_mem_diagnostics hd)

/-- Carriage returns before a newline, at the end, and between two newlines. -/
theorem lines_joined_returns :
    LinesFit "a\r\n\r\n@\r" ∧ lineTexts "a\r\n\r\n@\r" = ["a", "", "@"] ∧
      "\n".intercalate (List.zipWith restoreReturn ("a\r\n\r\n@\r".toList.splitOn '\n')
        (lineTexts "a\r\n\r\n@\r")) = "a\r\n\r\n@\r" ∧
      (⟨.unexpectedCharacter '@', 3⟩ : Diagnostic).report ("a\r\n\r\n@\r" ++ "\n" ++ "\"b") "f" =
        (⟨.unexpectedCharacter '@', 3⟩ : Diagnostic).report "a\r\n\r\n@\r" "f" := by
  have hfit : LinesFit "a\r\n\r\n@\r" := by decide +kernel
  have hline : (3 : UInt32).toNat ≤ lineCount "a\r\n\r\n@\r" := by decide +kernel
  exact ⟨hfit, by decide +kernel, (lines_joined.2.1 _).intercalate_eq hfit,
    (lines_joined.2.2.1 _ _ _ _ hline).2⟩

end LoxScan
