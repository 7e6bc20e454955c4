/-
Sessions at the prompt, one after another.

* `rawLines_append` — an input that ends in a newline keeps its lines if more input follows;
* `isSome_decode?_iff` — an input is text if all of its lines are;
* `Prompt.heard` — the sources that a session scans;
* `exchange_append`, `exchange_append_of_not_allText` — what is printed for some lines and then for
  others;
* `ContinuesWith`, `AnswersLineByLine` — what it means that a session goes on as if it began anew,
  and that each of its diagnostics is about a line of its own;
* `session_continues` — both hold for every input.

Design notes: a line is text or not by itself, since the byte of a newline belongs to no other
character.  So the first line that is not text is the same one whatever follows, and a session never
gets beyond it.
-/
import LoxScan.CommandLine.Run
import LoxScan.Proofs.Lines
import LoxScan.Proofs.Utf8

namespace LoxScan

namespace Prompt

/-! ### The lines of an input -/

/-- The input is empty or ends in a newline. -/
def EndsLine (input : List UInt8) : Prop := ∀ b ∈ input.getLast?, b = newlineByte

instance (input : List UInt8) : Decidable (EndsLine input) :=
  Option.decidableForallMem input.getLast?

/-- The first newline ends the first line. -/
theorem rawLines_append_newline {first : List UInt8} (h : newlineByte ∉ first)
    (rest : List UInt8) :
    rawLines (first ++ newlineByte :: rest) = dropFinal returnByte first :: rawLines rest := by
  have hne : rest.splitOn newlineByte ≠ [] := List.splitOn_ne_nil _ _
  rw [rawLines, List.splitOn_append_cons_self_of_not_mem h, List.dropLast_cons_of_ne_nil hne,
    List.getLast?_cons_of_ne_nil hne, List.map_cons, List.cons_append, rawLines]

/-- An input without a newline is one line, unless it is empty. -/
theorem rawLines_of_not_mem {input : List UInt8} (h : newlineByte ∉ input) :
    rawLines input = if input = [] then [] else [input] := by
  rw [rawLines, List.splitOn_eq_singleton h]
  cases input <;> rfl

/-- **An input that ends in a newline** keeps its lines if more input follows. -/
theorem rawLines_append {a : List UInt8} (ha : EndsLine a) (b : List UInt8) :
    rawLines (a ++ b) = rawLines a ++ rawLines b := by
  induction a using splitOn_induction newlineByte with
  | whole a hmem =>
    -- nothing but the empty input ends in a newline and has none
    rcases List.eq_nil_or_concat a with rfl | ⟨front, last, rfl⟩
    · rfl
    · have hlast : last = newlineByte := ha last (by simp)
      exact absurd (by simp [hlast]) hmem
  | piece first rest hfirst ih =>
    have hrest : EndsLine rest := by
      intro c hc
      refine ha c ?_
      rw [List.getLast?_append, List.getLast?_cons, hc]
      rfl
    rw [List.append_assoc, List.cons_append, rawLines_append_newline hfirst, ih hrest,
      rawLines_append_newline hfirst, List.cons_append]

/-- No line holds a newline. -/
theorem newlineByte_not_mem {input line : List UInt8} (h : line ∈ rawLines input) :
    newlineByte ∉ line := by
  induction input using splitOn_induction newlineByte with
  | whole input hmem =>
    rw [rawLines_of_not_mem hmem] at h
    split at h
    · exact absurd h (by simp)
    · rwa [List.mem_singleton.mp h]
  | piece first rest hfirst ih =>
    rw [rawLines_append_newline hfirst, List.mem_cons] at h
    rcases h with rfl | h
    · intro hmem
      exact hfirst ((dropFinal_sublist returnByte first).subset hmem)
    · exact ih h

/-! ### Lines that are text -/

/-- All of the lines are text. -/
def AllText (lines : List (List UInt8)) : Prop := ∀ line ∈ lines, (decode? line).isSome = true

instance (lines : List (List UInt8)) : Decidable (AllText lines) :=
  inferInstanceAs (Decidable (∀ line ∈ lines, (decode? line).isSome = true))

theorem isSome_decode?_utf8 (s : List Char) : (decode? (utf8 s)).isSome = true := by
  rw [decode?_utf8]
  rfl

/-- Bytes are text if they are when a carriage return at the end is dropped. -/
theorem exists_utf8_of_dropFinal {bytes : List UInt8}
    (h : (decode? (dropFinal returnByte bytes)).isSome = true) : ∃ s, bytes = utf8 s := by
  obtain ⟨source, hsource⟩ := Option.isSome_iff_exists.mp h
  have hbytes := decode?_eq_some_iff.mp hsource
  rcases eq_dropFinal_or returnByte bytes with heq | heq
  · exact ⟨source.toList, heq.trans hbytes⟩
  · refine ⟨source.toList ++ ['\r'], ?_⟩
    rw [utf8_append, utf8_singleton, returnByte_ascii.utf8EncodeChar, ← hbytes]
    exact heq

/-- **An input is text** if and only if all of its lines are. -/
theorem isSome_decode?_iff {input : List UInt8} :
    (decode? input).isSome = true ↔ AllText (rawLines input) := by
  constructor
  · intro h
    obtain ⟨source, hsource⟩ := Option.isSome_iff_exists.mp h
    rw [decode?_eq_some_iff.mp hsource, rawLines_utf8]
    intro line hline
    obtain ⟨text, _, rfl⟩ := List.mem_map.mp hline
    exact isSome_decode?_utf8 text.toList
  · intro h
    induction input using splitOn_induction newlineByte with
    | whole input hmem =>
      rw [rawLines_of_not_mem hmem] at h
      by_cases hnil : input = []
      · rw [hnil]
        exact isSome_decode?_utf8 []
      · rw [if_neg hnil] at h
        exact h input (List.mem_singleton_self input)
    | piece first rest hfirst ih =>
      rw [rawLines_append_newline hfirst, AllText, List.forall_mem_cons] at h
      obtain ⟨s, rfl⟩ := exists_utf8_of_dropFinal h.1
      obtain ⟨source, hsource⟩ := Option.isSome_iff_exists.mp (ih h.2)
      have hbytes : utf8 s ++ newlineByte :: rest = utf8 (s ++ '\n' :: source.toList) := by
        rw [utf8_append, utf8_cons, newlineByte_ascii.utf8EncodeChar,
          decode?_eq_some_iff.mp hsource]
        rfl
      rw [hbytes]
      exact isSome_decode?_utf8 _

/-! ### What a session scans and prints -/

/-- The sources that are scanned: the lines before the first one that is not text. -/
def heard : List (List UInt8) → List String
  | [] => []
  | line :: rest =>
    match decode? line with
    | some source => source :: heard rest
    | none => []

/-- What is printed for a source: the question, and the answer. -/
def turn (source : String) : List Printed := [ask, .ofScan (scan source) source fileName]

/-- What is printed when there is no other source. -/
def ending (lines : List (List UInt8)) : Printed := if AllText lines then farewell else complaint

theorem allText_cons_iff {line : List UInt8} {lines : List (List UInt8)} :
    AllText (line :: lines) ↔ (decode? line).isSome = true ∧ AllText lines := List.forall_mem_cons

/-- **An exchange** is a turn for each source, a question, and the ending. -/
theorem exchange_eq (lines : List (List UInt8)) :
    exchange lines = (heard lines).flatMap turn ++ [ask, ending lines] := by
  induction lines with
  | nil => rfl
  | cons line lines ih =>
    cases hline : decode? line with
    | none =>
      have hnot : ¬ AllText (line :: lines) := by simp [allText_cons_iff, hline]
      simp [exchange, answer?, heard, hline, ending, hnot]
    | some source =>
      have hending : ending (line :: lines) = ending lines := by
        simp [ending, allText_cons_iff, hline]
      simp [exchange, answer?, heard, hline, ih, hending, turn]

theorem heard_append {xs : List (List UInt8)} (h : AllText xs) (ys : List (List UInt8)) :
    heard (xs ++ ys) = heard xs ++ heard ys := by
  induction xs with
  | nil => rfl
  | cons line xs ih =>
    obtain ⟨hline, hxs⟩ := allText_cons_iff.mp h
    obtain ⟨source, hsource⟩ := Option.isSome_iff_exists.mp hline
    simp [heard, hsource, ih hxs]

/-- Nothing is heard behind a line that is not text. -/
theorem heard_append_of_not_allText {xs : List (List UInt8)} (h : ¬ AllText xs)
    (ys : List (List UInt8)) : heard (xs ++ ys) = heard xs := by
  induction xs with
  | nil => exact absurd (by simp [AllText]) h
  | cons line xs ih =>
    cases hline : decode? line with
    | none => simp [heard, hline]
    | some source =>
      have hxs : ¬ AllText xs := by simpa [allText_cons_iff, hline] using h
      simp [heard, hline, ih hxs]

theorem allText_append_iff {xs ys : List (List UInt8)} :
    AllText (xs ++ ys) ↔ AllText xs ∧ AllText ys := List.forall_mem_append

theorem ending_append {xs : List (List UInt8)} (h : AllText xs) (ys : List (List UInt8)) :
    ending (xs ++ ys) = ending ys := by
  simp [ending, allText_append_iff, h]

end Prompt

theorem Printed.join_append (ps qs : List Printed) :
    Printed.join (ps ++ qs) =
      ⟨(Printed.join ps).out ++ (Printed.join qs).out,
        (Printed.join ps).err ++ (Printed.join qs).err⟩ := by
  simp only [Printed.join, List.map_append, String.join_append]

namespace Prompt

/-- **Some lines and then others** print the turns of the first and then all of the second. -/
theorem exchange_append {xs : List (List UInt8)} (h : AllText xs) (ys : List (List UInt8)) :
    exchange (xs ++ ys) = (heard xs).flatMap turn ++ exchange ys := by
  rw [exchange_eq, exchange_eq ys, heard_append h, ending_append h, List.flatMap_append,
    List.append_assoc]

/-- **Behind a line that is not text** nothing is printed. -/
theorem exchange_append_of_not_allText {xs : List (List UInt8)} (h : ¬ AllText xs)
    (ys : List (List UInt8)) : exchange (xs ++ ys) = exchange xs := by
  have hending : ending (xs ++ ys) = ending xs := by
    simp [ending, allText_append_iff, h]
  rw [exchange_eq, exchange_eq xs, heard_append_of_not_allText h, hending]

end Prompt

/-! ### The lines of diagnostics -/

/-- In a source of one line, every diagnostic is on that line. -/
theorem line_eq_one_of_not_mem {source : String} (h : '\n' ∉ source.toList) {d : Diagnostic}
    (hd : d ∈ (scan source).diagnostics) : d.line = 1 := by
  obtain ⟨p, hp, _, hline⟩ := exists_placed_of_mem_diagnostics hd
  have hcount : (p.before ++ p.element.text).count '\n' = 0 := by
    have hle := (prefix_of_mem_placed hp).sublist.count_le '\n'
    rw [List.count_eq_zero_of_not_mem h] at hle
    exact Nat.le_zero.mp hle
  rw [hline, lineBehind, hcount]
  rfl

namespace Prompt

/-- What is heard is a line of the input. -/
theorem exists_line_of_mem_heard {lines : List (List UInt8)} {source : String}
    (h : source ∈ heard lines) : ∃ line ∈ lines, decode? line = some source := by
  induction lines with
  | nil => exact absurd h (by simp [heard])
  | cons line lines ih =>
    cases hline : decode? line with
    | none => exact absurd h (by simp [heard, hline])
    | some text =>
      rw [heard, hline, List.mem_cons] at h
      rcases h with rfl | h
      · exact ⟨line, List.mem_cons_self, hline⟩
      · obtain ⟨other, hother, hsource⟩ := ih h
        exact ⟨other, List.mem_cons_of_mem _ hother, hsource⟩

/-- So it has no newline. -/
theorem newline_not_mem_of_mem_heard {input : List UInt8} {source : String}
    (h : source ∈ heard (rawLines input)) : '\n' ∉ source.toList := by
  obtain ⟨line, hline, hsource⟩ := exists_line_of_mem_heard h
  have hbytes := decode?_eq_some_iff.mp hsource
  have hnone := newlineByte_not_mem hline
  rw [hbytes] at hnone
  intro hmem
  exact hnone ((mem_utf8_iff newlineByte_ascii).mpr hmem)

theorem ending_rawLines (input : List UInt8) :
    ending (rawLines input) = if (decode? input).isSome then farewell else complaint := by
  simp only [ending, isSome_decode?_iff]

/-! ### Sessions -/

/-- **A session answers line by line**: it is what is printed for the lines up to the first one that
is not text, and each diagnostic is about a line of its own. -/
structure AnswersLineByLine (input : List UInt8) : Prop where
  /-- A run without arguments is a session, and it succeeds. -/
  run : ∀ files, runCommand [] files input = ⟨0, session input⟩
  /-- There is a question for each line that is scanned, and another one. -/
  out : (session input).out =
    String.join ((heard (rawLines input)).map fun source =>
      "> " ++ (Printed.ofScan (scan source) source fileName).out) ++
        if (decode? input).isSome then "> \n" else "> "
  /-- There is a report for each diagnostic of these lines, and a complaint if one is not text. -/
  err : (session input).err =
    String.join ((heard (rawLines input)).map fun source =>
      String.join ((scan source).diagnostics.map (·.report source fileName))) ++
        if (decode? input).isSome then ""
        else "Failed to read input: stream did not contain valid UTF-8\n"
  /-- The reports speak of line one and of the prompt. -/
  line_one : ∀ source ∈ heard (rawLines input), ∀ d ∈ (scan source).diagnostics,
    d.line = 1 ∧ ∃ rows, d.report source fileName = String.join
      ((("[line 1] Error: " ++ d.fault.message) :: "-> <prompt>" :: rows).map (· ++ "\n"))

/-- **A session continues with another one**: nothing of it is left but the question that it ends
with, and if it ended early, there is no other one. -/
structure ContinuesWith (a b : List UInt8) : Prop where
  text : ∀ source, decode? a = some source → ∃ shown,
    (session a).out = shown ++ "> \n" ∧ (session (a ++ b)).out = shown ++ (session b).out ∧
      (session (a ++ b)).err = (session a).err ++ (session b).err
  broken : decode? a = none →
    session (a ++ b) = session a ∧ heard (rawLines (a ++ b)) = heard (rawLines a)

/-- The turns for some sources, printed. -/
theorem join_turns (sources : List String) : Printed.join (sources.flatMap turn) =
    ⟨String.join (sources.map fun source =>
        "> " ++ (Printed.ofScan (scan source) source fileName).out),
      String.join (sources.map fun source =>
        (Printed.ofScan (scan source) source fileName).err)⟩ := by
  induction sources with
  | nil => rfl
  | cons source sources ih =>
    rw [List.flatMap_cons, Printed.join_append, ih]
    simp [turn, ask, Printed.join]

theorem session_eq (input : List UInt8) : session input =
    ⟨String.join ((heard (rawLines input)).map fun source =>
        "> " ++ (Printed.ofScan (scan source) source fileName).out) ++
        (Printed.join [ask, ending (rawLines input)]).out,
      String.join ((heard (rawLines input)).map fun source =>
        (Printed.ofScan (scan source) source fileName).err) ++
        (Printed.join [ask, ending (rawLines input)]).err⟩ := by
  rw [session, exchange_eq, Printed.join_append, join_turns]

/-- The report of a diagnostic on line one begins with the line and the file. -/
theorem report_of_line_one {d : Diagnostic} (h : d.line = 1) (source : String) :
    ∃ rows, d.report source fileName = String.join
      ((("[line 1] Error: " ++ d.fault.message) :: "-> <prompt>" :: rows).map (· ++ "\n")) := by
  have hdisplay : d.display = "[line 1] Error: " ++ d.fault.message := by
    rw [Diagnostic.display, h]
    rfl
  refine ⟨(d.margin ++ "|") :: (d.sourceRow? source).toList ++ d.tipRow?.toList, ?_⟩
  rw [Diagnostic.report, Diagnostic.rows, hdisplay]
  rfl

/-- **A session answers line by line.** -/
theorem answersLineByLine (input : List UInt8) : AnswersLineByLine input where
  run _ := rfl
  out := by
    rw [session_eq, ending_rawLines]
    split
    · rfl
    · rfl
  err := by
    rw [session_eq, ending_rawLines]
    split
    · rfl
    · rfl
  line_one := by
    intro source hsource d hd
    have hline := line_eq_one_of_not_mem (newline_not_mem_of_mem_heard hsource) hd
    exact ⟨hline, report_of_line_one hline source⟩

theorem continuesWith_of_endsLine {a : List UInt8} (ha : EndsLine a) (b : List UInt8) :
    ContinuesWith a b where
  text := by
    intro source hsource
    have htext : AllText (rawLines a) := isSome_decode?_iff.mp (by rw [hsource]; rfl)
    have hending : ending (rawLines a) = farewell := if_pos htext
    have hfirst : session a = .join ((heard (rawLines a)).flatMap turn ++ [ask, farewell]) := by
      rw [session, exchange_eq, hending]
    have hboth : session (a ++ b) =
        .join ((heard (rawLines a)).flatMap turn ++ exchange (rawLines b)) := by
      rw [session, rawLines_append ha, exchange_append htext]
    rw [hfirst, hboth, Printed.join_append, Printed.join_append]
    refine ⟨(Printed.join ((heard (rawLines a)).flatMap turn)).out, rfl, rfl, ?_⟩
    -- the question and the ending say nothing on standard error
    have hsilent : (Printed.join [ask, farewell]).err = "" := rfl
    rw [hsilent, String.append_empty]
    rfl
  broken := by
    intro hnone
    have hbroken : ¬ AllText (rawLines a) := by
      intro htext
      have hsome := isSome_decode?_iff.mpr htext
      rw [hnone] at hsome
      exact absurd hsome (by simp)
    rw [session, rawLines_append ha, exchange_append_of_not_allText hbroken]
    exact ⟨rfl, heard_append_of_not_allText hbroken _⟩

/-- **Sessions continue each other**: behind an input that ends in a newline, a session goes on as
if it began anew, or not at all; and every session answers line by line. -/
theorem session_continues (a : List UInt8) (ha : EndsLine a) :
    (∀ b, ContinuesWith a b) ∧ ∀ input, AnswersLineByLine input :=
  ⟨continuesWith_of_endsLine ha, answersLineByLine⟩

/-- A line with a fault is forgotten, and behind a line that is not text nothing is read. -/
theorem session_continues_behind_fault :
    let fault : List UInt8 := [64, 13, 10]
    let noText : List UInt8 := [64, 10, 255, 10]
    let string : List UInt8 := [34, 120]
    EndsLine fault ∧ EndsLine noText ∧ ContinuesWith fault string ∧
      ContinuesWith noText string ∧ AnswersLineByLine (fault ++ string) ∧
      decode? fault = some "@\r\n" ∧ decode? noText = none ∧
      session (noText ++ string) = session noText := by
  intro fault noText string
  have hfault : EndsLine fault := by decide
  have hnoText : EndsLine noText := by decide
  obtain ⟨hcontinues, hanswers⟩ := session_continues fault hfault
  have hstops := (session_continues noText hnoText).1 string
  have hnone : decode? noText = none := by decide +kernel
  exact ⟨hfault, hnoText, hcontinues string, hstops, hanswers _, by decide +kernel, hnone,
    (hstops.broken hnone).1⟩

end Prompt

end LoxScan
