/-
A file and the prompt.

* `scan_of_dropFinal` — a carriage return at the end of a line is not noticed;
* `scan_events_eq_lines` — the events of a text are those of its lines, further down;
* `Scan.body` — the rows of a scan without the one for the end of the input;
* `AgreesWithPrompt` — what it means that a run over a file shows what the prompt shows for the lines
  of the file;
* `runFile_agreesWithPrompt` — it does, if no line ends inside a string.

Design notes: the lines that the prompt reads are not the pieces between newlines.  A line has lost a
carriage return, and behind the last newline there is a line only if it is not empty.  A scan notices
neither.
-/
import LoxScan.Proofs.Concatenation
import LoxScan.Proofs.Utf8

namespace LoxScan

/-! ### The lines of a text -/

/-- The newlines before a line and those in it are newlines of the text. -/
theorem add_count_le_of_mem_zipIdx {s : List Char} {n : Nat} {line : String} {i : Nat}
    (h : (line, i) ∈ (inputLines s).zipIdx n) :
    i + line.toList.count '\n' ≤ n + s.count '\n' := by
  induction s using splitOn_induction '\n' generalizing n with
  | whole s hmem =>
    rw [inputLines_of_not_mem hmem] at h
    split at h
    · exact absurd h (by simp)
    · obtain ⟨rfl, rfl⟩ : line = String.ofList s ∧ i = n := by simpa using h
      simp
  | piece first rest hfirst ih =>
    rw [inputLines_append_newline hfirst, List.zipIdx_cons, List.mem_cons] at h
    rw [List.count_append, List.count_cons_self]
    rcases h with h | h
    · obtain ⟨rfl, rfl⟩ := Prod.mk.inj h
      have hle := (dropFinal_sublist '\r' first).count_le '\n'
      rw [String.toList_ofList]
      omega
    · have hrest := ih h
      omega

/-- A carriage return at the end of a line is not noticed outside of strings. -/
theorem scan_of_dropFinal {line : List Char} (h : Closed (String.ofList (dropFinal '\r' line))) :
    scan (String.ofList line) = scan (String.ofList (dropFinal '\r' line)) := by
  rcases eq_dropFinal_or '\r' line with heq | heq
  · rw [← heq]
  · have hsource : String.ofList line =
        String.ofList (dropFinal '\r' line) ++ String.singleton '\r' := by
      rw [← String.toList_inj]
      simp [← heq]
    rw [hsource, scan_append_blank h (by simp)]

/-- **The events of a text** are those of its lines, each as far down as the line stands. -/
theorem map_later_scan_events (s : List Char) (n : Nat) (h : ∀ line ∈ inputLines s, Closed line) :
    (scan (String.ofList s)).events.map (Event.later n) =
      ((inputLines s).zipIdx n).flatMap fun (line, i) =>
        (scan line).events.map (Event.later i) := by
  -- what stands behind the first newline begins one line further down, hence the general `n`
  induction s using splitOn_induction '\n' generalizing n with
  | whole s hmem =>
    rw [inputLines_of_not_mem hmem]
    split
    · next hnil =>
      rw [hnil, scan_events, String.toList_ofList, cut_nil]
      rfl
    · simp
  | piece first rest hfirst ih =>
    rw [inputLines_append_newline hfirst] at h ⊢
    have hline : Closed (String.ofList (dropFinal '\r' first)) := h _ (by simp)
    have hscan := scan_of_dropFinal hline
    have hsource : String.ofList (first ++ '\n' :: rest) =
        String.ofList first ++ "\n" ++ String.ofList rest := by
      rw [← String.toList_inj]
      simp
    have hcount : (String.ofList first).toList.count '\n' = 0 := by
      rw [String.toList_ofList, List.count_eq_zero_of_not_mem hfirst]
    have hrest := ih (n + 1) fun line hmem => h line (by simp [hmem])
    rw [hsource, scan_newline_eq ((Closed.congr hscan).mpr hline), hcount, hscan, List.zipIdx_cons,
      List.flatMap_cons, ← hrest, Scan.followedBy, List.map_append, List.map_map]
    simp only [Function.comp_def, Event.later_later, Nat.add_zero]

/-- The events of a source are those of its lines. -/
theorem scan_events_eq_lines {source : String}
    (h : ∀ line ∈ inputLines source.toList, Closed line) :
    (scan source).events = (inputLines source.toList).zipIdx.flatMap fun (line, i) =>
      (scan line).events.map (Event.later i) := by
  have hevents := map_later_scan_events source.toList 0 h
  rwa [String.ofList_toList, Event.later_zero, List.map_id] at hevents

/-! ### What is printed -/

/-- The rows of the tokens, without the one for the end of the input. -/
def Scan.body (s : Scan) : String :=
  String.join ((s.events.filterMap Event.token?).map (·.display ++ "\n"))

/-- **A printout** is the rows of the tokens in the source and a row for the end of the input. -/
theorem ofScan_out (s : Scan) (source file : String) :
    (Printed.ofScan s source file).out = s.body ++ "EOF \n" := by
  rw [Printed.ofScan, Scan.tokens, List.map_append, String.join_append, Scan.body]
  rfl

theorem join_flatMap {α : Type} (f : α → List String) (l : List α) :
    String.join (l.flatMap f) = String.join (l.map fun a => String.join (f a)) := by
  induction l with
  | nil => rfl
  | cons a l ih => rw [List.flatMap_cons, List.map_cons, String.join_append, String.join_cons, ih]

section

variable {s : Scan} {lines : List String} (hevents : s.events =
  lines.zipIdx.flatMap fun (line, i) => (scan line).events.map (Event.later i))

include hevents

/-- Rows do not depend on lines. -/
theorem body_eq_lines : s.body = String.join (lines.map fun line => (scan line).body) := by
  have hrows : (s.events.filterMap Event.token?).map (·.display ++ "\n") =
      lines.zipIdx.flatMap fun (line, _) =>
        ((scan line).events.filterMap Event.token?).map (·.display ++ "\n") := by
    simp only [hevents, List.filterMap_flatMap, List.map_flatMap, filterMap_token?_later,
      List.map_map]
    rfl
  have hfst : lines.zipIdx.map (fun (line, _) => (scan line).body) =
      lines.map fun line => (scan line).body := by
    conv => rhs; rw [← List.zipIdx_map_fst 0 lines, List.map_map]
    rfl
  rw [Scan.body, hrows, join_flatMap, ← hfst]
  rfl

/-- The diagnostics are those of the lines, further down. -/
theorem diagnostics_eq_lines : s.diagnostics =
    lines.zipIdx.flatMap fun (line, i) => (scan line).diagnostics.map (Diagnostic.later i) := by
  simp only [Scan.diagnostics, hevents, List.filterMap_flatMap, filterMap_diagnostic?_later]

theorem diagnostics_eq_nil_iff_lines :
    s.diagnostics = [] ↔ ∀ line ∈ lines, (scan line).diagnostics = [] := by
  rw [diagnostics_eq_lines hevents, List.flatMap_eq_nil_iff]
  conv => rhs; rw [← List.zipIdx_map_fst 0 lines, List.forall_mem_map]
  simp only [List.map_eq_nil_iff]

end

theorem runFile_of_decode? (path : String) {bytes : List UInt8} {source : String}
    (h : decode? bytes = some source) : runFile path (.ok bytes) = runText source path := by
  rw [runFile, h]

/-- The exit code tells whether there are diagnostics. -/
theorem runText_exitCode_eq_zero_iff {source path : String} :
    (runText source path).exitCode = 0 ↔ (scan source).diagnostics = [] := by
  by_cases h : (scan source).diagnostics = [] <;> simp [runText, h, faultyExit]

theorem runText_exitCode_eq_faulty_iff {source path : String} :
    (runText source path).exitCode = faultyExit ↔ (scan source).diagnostics ≠ [] := by
  by_cases h : (scan source).diagnostics = [] <;> simp [runText, h, faultyExit]

/-- **A file and the prompt agree**: a run over the file shows what the prompt shows for these lines
of it. -/
structure AgreesWithPrompt (path : String) (bytes : List UInt8) (source : String)
    (lines : List String) : Prop where
  /-- The rows of the file are those that the prompt prints for the lines, with a single row for the
  end of the input. -/
  out : ∃ shown : List String,
    (Prompt.rawLines bytes).map (fun raw => (Prompt.answer? raw).map Printed.out) =
        shown.map (fun rows => some (rows ++ "EOF \n")) ∧
      (runFile path (.ok bytes)).printed.out = String.join shown ++ "EOF \n"
  /-- The reports are those of the diagnostics of the file. -/
  err : (runFile path (.ok bytes)).printed.err =
    String.join ((scan source).diagnostics.map (·.report source path))
  /-- The diagnostics of the file are those of the lines, further down. -/
  diagnostics : (scan source).diagnostics =
    lines.zipIdx.flatMap fun (line, i) => (scan line).diagnostics.map (Diagnostic.later i)
  /-- That is, by as many lines as there are before the line. -/
  diagnostic_line : ∀ line i, (line, i) ∈ lines.zipIdx → ∀ d ∈ (scan line).diagnostics,
    (d.later i).line.toNat = d.line.toNat + i
  /-- The run fails if there is a diagnostic for one of the lines. -/
  exit_faulty : (runFile path (.ok bytes)).exitCode = 65 ↔
    ∃ line ∈ lines, (scan line).diagnostics ≠ []
  /-- Else it succeeds. -/
  exit_clean : (runFile path (.ok bytes)).exitCode = 0 ↔
    ∀ line ∈ lines, (scan line).diagnostics = []

/-- **A run over a file agrees with the prompt**, if none of the lines that the prompt reads ends
inside a string. -/
theorem runFile_agreesWithPrompt (path : String) (bytes : List UInt8) (source : String)
    (hdecode : decode? bytes = some source) (hfit : LinesFit source) :
    ∃ lines : List String, (Prompt.rawLines bytes).map decode? = lines.map some ∧
      ((∀ line ∈ lines, Closed line) → AgreesWithPrompt path bytes source lines) := by
  have hrun := runFile_of_decode? path hdecode
  have hraw : Prompt.rawLines bytes =
      (inputLines source.toList).map fun line => utf8 line.toList := by
    rw [decode?_eq_some_iff.mp hdecode, rawLines_utf8]
  refine ⟨inputLines source.toList, ?_, fun hclosed => ?_⟩
  · rw [hraw, List.map_map]
    simp [Function.comp_def]
  · have hevents := scan_events_eq_lines hclosed
    exact {
      out := by
        refine ⟨(inputLines source.toList).map fun line => (scan line).body, ?_, ?_⟩
        · rw [hraw, List.map_map, List.map_map]
          simp [Function.comp_def, Prompt.answer?, ofScan_out]
        · rw [hrun, runText, ofScan_out, body_eq_lines hevents]
      err := by
        rw [hrun]
        rfl
      diagnostics := diagnostics_eq_lines hevents
      diagnostic_line := by
        intro line i hmem d hd
        have hcount := add_count_le_of_mem_zipIdx hmem
        rw [LinesFit] at hfit
        exact toNat_later_of_mem_diagnostics (by omega) d hd
      exit_faulty := by
        rw [hrun, show (65 : UInt32) = faultyExit from rfl, runText_exitCode_eq_faulty_iff, Ne,
          diagnostics_eq_nil_iff_lines hevents]
        simp
      exit_clean := by
        rw [hrun, runText_exitCode_eq_zero_iff, diagnostics_eq_nil_iff_lines hevents] }

/-- A line that ends in a carriage return, and a numeral that must not go on in the next line. -/
theorem agreesWithPrompt_of_return :
    let bytes : List UInt8 := [97, 32, 64, 13, 10, 49, 46, 10, 53, 10]
    decode? bytes = some "a @\r\n1.\n5\n" ∧ LinesFit "a @\r\n1.\n5\n" ∧
      AgreesWithPrompt "numbers.lox" bytes "a @\r\n1.\n5\n" ["a @", "1.", "5"] ∧
      (runFile "numbers.lox" (.ok bytes)).exitCode = 65 := by
  intro bytes
  have hdecode : decode? bytes = some "a @\r\n1.\n5\n" := by decide +kernel
  have hfit : LinesFit "a @\r\n1.\n5\n" := by decide +kernel
  obtain ⟨lines, hlines, hagrees⟩ := runFile_agreesWithPrompt "numbers.lox" bytes _ hdecode hfit
  have hread : (Prompt.rawLines bytes).map decode? = ["a @", "1.", "5"].map some := by
    decide +kernel
  obtain rfl : lines = ["a @", "1.", "5"] := by
    rw [hread] at hlines
    exact (List.map_inj_right fun _ _ => Option.some.inj).mp hlines.symm
  have hagrees := hagrees (by decide +kernel)
  have hfaulty : ∃ line ∈ ["a @", "1.", "5"], (scan line).diagnostics ≠ [] := by decide +kernel
  exact ⟨hdecode, hfit, hagrees, hagrees.exit_faulty.mpr hfaulty⟩

end LoxScan
