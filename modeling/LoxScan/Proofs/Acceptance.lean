/-
The exit code of a run over a file tells whether its text is acceptable.

* `LooseCut.faultsFrom_eq_nil` — a text with any cut into well-formed elements has no faults;
* `LongestCut.looseCut` — the cut of a text without faults is such a cut;
* `acceptable_iff` — so a text is acceptable just when its scan has no diagnostics;
* `Diagnostic.report_ne_empty` — a report is never empty, so a silent run has none;
* `Verdict` — what a run over a file shows of its text;
* `runCommand_verdict` — every run over a file that can be read ends in that verdict.

Design notes: most cuts of a text are not the one by which it is scanned, and nothing can be said of
them element by element.  The automaton that finds the faults knows of no elements, so what it
reports along one cut it reports along all of them.
-/
import LoxScan.CommandLine.Run
import LoxScan.Proofs.Automaton
import LoxScan.Proofs.FileAndPrompt

namespace LoxScan

/-! ### Acceptable texts -/

/-- **Along any cut** the automaton reports nothing. -/
theorem LooseCut.faultsFrom_eq_nil {s : List Char} {es : List Element} (h : LooseCut s es)
    (line : Nat) : faultsFrom .code line s = [] := by
  induction h generalizing line with
  | nil => rfl
  | cons hwf hmay _ ih =>
    -- behind the element the automaton is in code again, only further down
    rw [faultsFrom_text_append hwf hmay]
    exact ih _

/-- The cut by the longest match is one of them if it has no faults. -/
theorem LongestCut.looseCut {s : List Char} {es : List Element} (h : LongestCut s es)
    (hclean : es.filterMap Element.fault? = []) : LooseCut s es := by
  induction h with
  | nil => exact .nil
  | matched hlongest _ ih =>
    obtain ⟨hwf, hend⟩ := Element.longestAt_iff.mp hlongest
    rw [List.filterMap_cons_none (Element.fault?_eq_none hwf)] at hclean
    exact .cons hwf hend.mayPrecede (ih hclean)
  | openString _ =>
    rw [List.filterMap_cons_some (Element.Breaks.openString _).fault?_eq_some] at hclean
    exact absurd hclean (by simp)
  | stray _ _ _ _ =>
    rw [List.filterMap_cons_some (Element.Breaks.stray _).fault?_eq_some] at hclean
    exact absurd hclean (by simp)

theorem diagnostics_eq_nil_iff_faultsFrom (source : String) :
    (scan source).diagnostics = [] ↔ faultsFrom .code 1 source.toList = [] := by
  have hreports := (longestCut_cut source.toList).faultsFrom_eq 1
  have hdiagnostics : (scan source).diagnostics =
      (faultsFrom .code 1 source.toList).map fun r => ⟨r.1, UInt32.ofNat r.2⟩ := by
    rw [scan_diagnostics, ← hreports]
    rfl
  rw [hdiagnostics, List.map_eq_nil_iff]

/-- **A text is acceptable** just when its scan has no diagnostics. -/
theorem acceptable_iff (source : String) :
    Acceptable source.toList ↔ (scan source).diagnostics = [] := by
  constructor
  · rintro ⟨es, hcut⟩
    exact (diagnostics_eq_nil_iff_faultsFrom source).mpr (hcut.faultsFrom_eq_nil 1)
  · intro h
    have hclean : (cut source.toList).filterMap Element.fault? = [] := by
      rw [← scan_faults, h, List.map_nil]
    exact ⟨_, (longestCut_cut source.toList).looseCut hclean⟩

/-! ### What a run shows -/

/-- A report has at least one row. -/
theorem Diagnostic.report_ne_empty (d : Diagnostic) (source file : String) :
    d.report source file ≠ "" := by
  have hnewline : '\n' ∈ (d.report source file).toList := by
    rw [report, String.toList_join, List.mem_flatMap]
    exact ⟨d.display ++ "\n", List.mem_map_of_mem (by simp [rows]), by simp⟩
  intro h
  rw [h] at hnewline
  exact absurd hnewline (by simp)

/-- A run that reports nothing on standard error has no diagnostics. -/
theorem ofScan_err_eq_empty_iff (s : Scan) (source file : String) :
    (Printed.ofScan s source file).err = "" ↔ s.diagnostics = [] := by
  constructor
  · intro h
    have hempty : ∀ d ∈ s.diagnostics, d.report source file = "" := by
      rw [Printed.ofScan, ← String.toList_inj, String.toList_join, String.toList_empty,
        List.flatMap_eq_nil_iff, List.forall_mem_map] at h
      exact fun d hd => String.toList_eq_nil_iff.mp (h d hd)
    refine List.eq_nil_iff_forall_not_mem.mpr fun d hd => ?_
    exact d.report_ne_empty source file (hempty d hd)
  · intro h
    rw [Printed.ofScan, h]
    rfl

/-- What a run over a file shows of its text: all tokens in any case, and by its exit code and by
what it reports whether the text is acceptable. -/
structure Verdict (source path : String) (outcome : Outcome) : Prop where
  /-- There is a row for each token of the scan, whether or not there are diagnostics. -/
  out : outcome.printed.out = String.join ((scan source).tokens.map (·.display ++ "\n"))
  /-- The last row is that of the end of the input. -/
  last_row : ∃ rows, outcome.printed.out = rows ++ "EOF \n"
  /-- There is a report for each diagnostic of the scan, in order. -/
  err : outcome.printed.err = String.join ((scan source).diagnostics.map (·.report source path))
  /-- The run succeeds if and only if it reports nothing. -/
  exit_zero_iff : outcome.exitCode = 0 ↔ outcome.printed.err = ""
  /-- It reports nothing if and only if the text is acceptable. -/
  err_empty_iff : outcome.printed.err = "" ↔ Acceptable source.toList
  /-- Else it fails. -/
  exit_faulty : ¬ Acceptable source.toList → outcome.exitCode = 65

theorem runText_verdict (source path : String) : Verdict source path (runText source path) where
  out := rfl
  last_row := ⟨_, ofScan_out (scan source) source path⟩
  err := rfl
  exit_zero_iff := by
    rw [runText_exitCode_eq_zero_iff]
    exact (ofScan_err_eq_empty_iff _ source path).symm
  err_empty_iff := by
    rw [acceptable_iff]
    exact ofScan_err_eq_empty_iff _ source path
  exit_faulty := by
    intro h
    rw [acceptable_iff] at h
    exact runText_exitCode_eq_faulty_iff.mpr h

theorem failedRead_notText (path : String) : failedRead path .notText =
    ⟨66, "", "Failed to read file '" ++ path ++ "': stream did not contain valid UTF-8\n"⟩ := by
  rw [failedRead, ReadFailure.message, String.append_assoc, String.append_assoc]
  rfl

/-- **The exit code decides which texts are acceptable**: a run over a file whose bytes are not text
says so and shows nothing else, and any other run ends in the verdict on the text. -/
theorem runCommand_verdict (path : String) (bytes : List UInt8) (files : FileTree)
    (input : List UInt8) (hread : files.read path = .ok bytes) :
    (decode? bytes = none → runCommand [path] files input =
      ⟨66, "", "Failed to read file '" ++ path ++ "': stream did not contain valid UTF-8\n"⟩) ∧
      ∀ source, decode? bytes = some source →
        Verdict source path (runCommand [path] files input) := by
  have hrun : runCommand [path] files input = runFile path (.ok bytes) := by
    rw [runCommand, hread]
  rw [hrun]
  constructor
  · intro hnone
    rw [runFile, hnone]
    exact failedRead_notText path
  · intro source hsource
    rw [runFile_of_decode? path hsource]
    exact runText_verdict source path

/-- The cut of `ab1!=` into single characters is none by the longest match, but it shows that the
text is acceptable. -/
theorem verdict_of_single_characters :
    let files := FileTree.empty.writeFile "a.lox" [97, 98, 49, 33, 61]
    files.read "a.lox" = .ok [97, 98, 49, 33, 61] ∧
      decode? [97, 98, 49, 33, 61] = some "ab1!=" ∧
      Verdict "ab1!=" "a.lox" (runCommand ["a.lox"] files []) ∧
      (runCommand ["a.lox"] files []).exitCode = 0 ∧
      (runCommand ["a.lox"] files []).printed.err = "" := by
  intro files
  have hread : files.read "a.lox" = .ok [97, 98, 49, 33, 61] := by decide +kernel
  have hdecode : decode? [97, 98, 49, 33, 61] = some "ab1!=" := by decide +kernel
  have hverdict := (runCommand_verdict "a.lox" _ files [] hread).2 _ hdecode
  have hcut : Acceptable "ab1!=".toList := by
    have hword : ∀ c, Unicode.isAlphabetic c = true → (Element.word [c]).WellFormed := by
      intro c hc
      exact ⟨c, [], rfl, hc, by simp⟩
    have ha := hword 'a' (by decide +kernel)
    have hb := hword 'b' (by decide +kernel)
    have hone : (Element.number ⟨['1'], []⟩).WellFormed := ⟨by simp, by simp⟩
    have hmark : ∀ m ≠ Mark.slash, ∀ rest, (Element.mark m).MayPrecede rest := by
      intro m hm rest hslash
      exact absurd hslash hm
    have hnot := hmark .not (by simp) ['=']
    have hequals := hmark .assignment (by simp) []
    have hmarks : LooseCut ['!', '='] [.mark .not, .mark .assignment] :=
      .cons (e := .mark .not) trivial hnot (.cons (e := .mark .assignment) trivial hequals .nil)
    exact ⟨_, .cons ha trivial (.cons hb trivial (.cons hone trivial hmarks))⟩
  have herr := hverdict.err_empty_iff.mpr hcut
  exact ⟨hread, hdecode, hverdict, hverdict.exit_zero_iff.mpr herr, herr⟩

end LoxScan
