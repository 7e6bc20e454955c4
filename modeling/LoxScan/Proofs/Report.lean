/-
A report determines its diagnostic.

* `Diagnostic.toList_report` — a report is its rows, each with a newline;
* `Diagnostic.toList_report_eq` — the number of the line, the message and the tip in a report, and
  what stands between them;
* `Fault.eq_of_message_append` — message and tip determine the fault;
* `report_injective` — so no two diagnostics have the same report.

Design notes: file name and source may be any texts, and hold newlines and texts that look like rows
of a report.  Both depend on nothing but the line, and the number of the line ends at its bracket.
So what stands between message and tip is the same for both diagnostics once their lines are.
-/
import LoxScan.Diagnostic.Report
import LoxScan.Proofs.Escape

namespace LoxScan

theorem not_mem_toDigits_ten {c : Char} (hc : c.isDigit = false) (n : Nat) :
    c ∉ Nat.toDigits 10 n := by
  intro hmem
  rw [Nat.isDigit_of_mem_toDigits (by omega) (Nat.le_refl 10) hmem] at hc
  exact Bool.noConfusion hc

namespace Diagnostic

/-- **A report is its rows**, each with a newline. -/
theorem toList_report (d : Diagnostic) (source file : String) :
    (d.report source file).toList =
      (d.rows source file).flatMap fun row => row.toList ++ ['\n'] := by
  rw [report, String.toList_join, List.flatMap_map]
  simp

/-- The rows that depend on the line only. -/
def middle (d : Diagnostic) (source file : String) : List Char :=
  (["-> " ++ file, d.margin ++ "|"] ++ (d.sourceRow? source).toList).flatMap
    fun row => row.toList ++ ['\n']

/-- The row of the tip. -/
def ending (d : Diagnostic) : List Char :=
  d.tipRow?.toList.flatMap fun row => row.toList ++ ['\n']

/-- The parts of a report. -/
theorem toList_report_eq (d : Diagnostic) (source file : String) :
    (d.report source file).toList =
      "[line ".toList ++ (Nat.toDigits 10 d.line.toNat ++ ']' :: (" Error: ".toList ++
        (d.fault.message.toList ++ '\n' :: (d.middle source file ++ d.ending)))) := by
  rw [toList_report, rows, middle, ending, display]
  simp [List.append_assoc]

theorem ending_unexpectedCharacter (c : Char) (line : UInt32) :
    (⟨.unexpectedCharacter c, line⟩ : Diagnostic).ending =
      List.replicate (line.toNat.repr.length + 1) ' ' ++ ("= `".toList ++ (escape c ++
        ("` does not start any token".toList ++ ['\n']))) := by
  simp [ending, tipRow?, Fault.tip?, margin, label]

theorem ending_unreadableNumber (text : String) (line : UInt32) :
    (⟨.unreadableNumber text, line⟩ : Diagnostic).ending = [] := rfl

end Diagnostic

namespace Fault

/-- The first letters of a message, which tell the kinds of faults apart. -/
def initials : Fault → List Char
  | unexpectedCharacter _ => ['U', 'n', 'e']
  | unterminatedString => ['U', 'n', 't']
  | unreadableNumber _ => ['e', 'r', 'r']

theorem toList_message_unreadableNumber (text : String) :
    (unreadableNumber text).message.toList =
      "error parsing number: ".toList ++ quote text.toList := by
  show ("error parsing number: " ++ String.ofList (quote text.toList)).toList = _
  simp only [String.toList_append, String.toList_ofList]

theorem exists_message_eq (f : Fault) : ∃ rest, f.message.toList = f.initials ++ rest := by
  cases f with
  | unexpectedCharacter c =>
    have htext : "Unexpected character".toList = ['U', 'n', 'e'] ++ "xpected character".toList := by
      decide +kernel
    exact ⟨_, htext⟩
  | unterminatedString =>
    have htext : "Unterminated string".toList = ['U', 'n', 't'] ++ "erminated string".toList := by
      decide +kernel
    exact ⟨_, htext⟩
  | unreadableNumber text =>
    have htext : "error parsing number: ".toList =
        ['e', 'r', 'r'] ++ "or parsing number: ".toList := by
      decide +kernel
    refine ⟨"or parsing number: ".toList ++ quote text.toList, ?_⟩
    rw [toList_message_unreadableNumber, initials, htext, List.append_assoc]

theorem initials_eq_of_message_append {f g : Fault} {s t : List Char}
    (heq : f.message.toList ++ s = g.message.toList ++ t) : f.initials = g.initials := by
  obtain ⟨rest, hf⟩ := f.exists_message_eq
  obtain ⟨rest', hg⟩ := g.exists_message_eq
  have hlength : f.initials.length = g.initials.length := by
    cases f <;> cases g <;> rfl
  rw [hf, hg, List.append_assoc, List.append_assoc] at heq
  exact (List.append_inj heq hlength).1

/-- **Message and tip determine the fault.** -/
theorem eq_of_message_append {f g : Fault} {line : UInt32} {middle : List Char}
    (heq : f.message.toList ++ '\n' :: (middle ++ (⟨f, line⟩ : Diagnostic).ending) =
      g.message.toList ++ '\n' :: (middle ++ (⟨g, line⟩ : Diagnostic).ending)) : f = g := by
  have hinitials := initials_eq_of_message_append heq
  cases f with
  | unexpectedCharacter c =>
    cases g with
    | unexpectedCharacter d =>
      rw [Diagnostic.ending_unexpectedCharacter, Diagnostic.ending_unexpectedCharacter] at heq
      have hmessage : (unexpectedCharacter d).message = (unexpectedCharacter c).message := rfl
      rw [hmessage, List.append_cancel_left_eq, List.cons.injEq, List.append_cancel_left_eq,
        List.append_cancel_left_eq, List.append_cancel_left_eq] at heq
      rw [((escaped_escape c).append_inj (escaped_escape d) heq.2).1]
    | unterminatedString => simp [initials] at hinitials
    | unreadableNumber text => simp [initials] at hinitials
  | unterminatedString =>
    cases g with
    | unexpectedCharacter d => simp [initials] at hinitials
    | unterminatedString => rfl
    | unreadableNumber text => simp [initials] at hinitials
  | unreadableNumber text =>
    cases g with
    | unexpectedCharacter d => simp [initials] at hinitials
    | unterminatedString => simp [initials] at hinitials
    | unreadableNumber other =>
      rw [Diagnostic.ending_unreadableNumber, Diagnostic.ending_unreadableNumber,
        toList_message_unreadableNumber, toList_message_unreadableNumber,
        List.append_cancel_right_eq, List.append_cancel_left_eq] at heq
      rw [String.toList_inj.mp (quote_injective heq)]

end Fault

/-- **No two diagnostics have the same report**, whatever the source and the name of the file. -/
theorem report_injective (source file : String) :
    Function.Injective fun d : Diagnostic => d.report source file := by
  rintro ⟨f, line⟩ ⟨g, other⟩ h
  have heq := congrArg String.toList h
  simp only [Diagnostic.toList_report_eq] at heq
  have hbracket := not_mem_toDigits_ten (c := ']') rfl
  obtain ⟨hdigits, hrest⟩ :=
    append_cons_inj (hbracket _) (hbracket _) (List.append_cancel_left heq)
  obtain rfl : line = other := by
    rw [← UInt32.toNat_inj, ← Nat.ofDigitChars_ten_toDigits (n := line.toNat), hdigits,
      Nat.ofDigitChars_ten_toDigits]
  -- the rows between message and tip are those of the line
  have hmiddle : Diagnostic.middle ⟨g, line⟩ source file = Diagnostic.middle ⟨f, line⟩ source file :=
    rfl
  rw [hmiddle] at hrest
  rw [Fault.eq_of_message_append (List.append_cancel_left hrest)]

end LoxScan
