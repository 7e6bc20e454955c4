/-
The faults of a scan are found by an automaton that reads one character at a time.

* `faultsFrom_text_append` — over a well-formed element that may precede the rest, the automaton
  reports nothing and comes back to code;
* `isCodeCharacter_of_unmatched` — where nothing matches, the automaton refuses the character;
* `LongestCut.faultsFrom_eq` — so along a whole cut it reports the faults of the elements;
* `diagnostics_eq_faultsFrom` — and these are the diagnostics of the scan.

Design notes: between two elements the automaton need not be in code.  Behind a slash and behind a
comment it is in a mode of its own, but there it treats what can follow as in code.
-/
import LoxScan.Element.LooseCut
import LoxScan.Proofs.Lines
import LoxScan.Scan.Modes

namespace LoxScan

/-! ### Runs in one mode -/

namespace Mode

/-- The character is read without a report and leaves the mode as it is. -/
def Keeps (mode : Mode) (c : Char) : Prop := mode.after c = mode ∧ mode.rejects c = false

theorem code_keeps {c : Char} (hcode : isCodeCharacter c = true) (hquote : c ≠ '"')
    (hslash : c ≠ '/') : code.Keeps c :=
  ⟨by simp [after, afterCode], by simp [rejects, hcode]⟩

theorem code_keeps_of_isDigit {c : Char} (h : c.isDigit = true) : code.Keeps c := by
  refine code_keeps (by simp [isCodeCharacter, h]) ?_ ?_
  · rintro rfl
    exact absurd h (by decide)
  · rintro rfl
    exact absurd h (by decide)

theorem code_keeps_of_isAlphabetic {c : Char} (h : Unicode.isAlphabetic c = true) :
    code.Keeps c := by
  refine code_keeps (by simp [isCodeCharacter, h]) ?_ ?_
  · rintro rfl
    exact absurd h (by rw [Unicode.isAlphabetic_of_ascii] <;> decide)
  · rintro rfl
    exact absurd h (by rw [Unicode.isAlphabetic_of_ascii] <;> decide)

theorem code_keeps_of_isWordCharacter {c : Char} (h : isWordCharacter c = true) :
    code.Keeps c := by
  rw [isWordCharacter, Bool.or_eq_true] at h
  rcases h with h | h
  · exact code_keeps_of_isAlphabetic h
  · exact code_keeps_of_isDigit h

theorem code_keeps_of_mem_text {m : Mark} (h : m ≠ .slash) : ∀ c ∈ m.text, code.Keeps c := by
  have hequals : code.Keeps '=' := ⟨rfl, rfl⟩
  cases m with
  | slash => exact absurd rfl h
  | notEquals | equals | lessEquals | greaterEquals =>
    simp only [Mark.text, List.forall_mem_cons]
    exact ⟨⟨rfl, rfl⟩, hequals, by simp⟩
  | _ =>
    simp only [Mark.text, List.forall_mem_singleton]
    exact ⟨rfl, rfl⟩

theorem code_keeps_of_mem_numeral {n : Numeral} (hwf : n.WellFormed) :
    ∀ c ∈ n.text, code.Keeps c := by
  intro c hc
  rcases Numeral.eq_point_or_isDigit hwf hc with rfl | hdigit
  · exact code_keeps (by decide) (by decide) (by decide)
  · exact code_keeps_of_isDigit hdigit

theorem string_keeps {c : Char} (h : c ≠ '"') : string.Keeps c := ⟨by simp [after, h], rfl⟩

theorem comment_keeps {c : Char} (h : c ≠ '\n') : comment.Keeps c := ⟨by simp [after, h], rfl⟩

end Mode

theorem faultsFrom_cons {mode : Mode} {c : Char} (h : mode.rejects c = false) (line : Nat)
    (rest : List Char) :
    faultsFrom mode line (c :: rest) = faultsFrom (mode.after c) (line + [c].count '\n') rest := by
  rw [faultsFrom, h]
  by_cases hnewline : c = '\n'
  · simp [hnewline]
  · simp [hnewline]

/-- **A run in one mode** counts its newlines and reports nothing. -/
theorem faultsFrom_run {mode : Mode} {run : List Char} (hrun : ∀ c ∈ run, mode.Keeps c)
    (line : Nat) (rest : List Char) :
    faultsFrom mode line (run ++ rest) = faultsFrom mode (line + run.count '\n') rest := by
  induction run generalizing line with
  | nil => rfl
  | cons c run ih =>
    obtain ⟨hmode, hrejects⟩ := hrun c (by simp)
    have hcount : (c :: run).count '\n' = [c].count '\n' + run.count '\n' := by
      rw [← List.count_append, List.singleton_append]
    rw [List.cons_append, faultsFrom_cons hrejects, hmode, ih fun d hd => hrun d (by simp [hd]),
      hcount, Nat.add_assoc]

theorem faultsFrom_string {body : List Char} (hbody : '"' ∉ body) (line : Nat) (rest : List Char) :
    faultsFrom .string line (body ++ rest) = faultsFrom .string (line + body.count '\n') rest := by
  refine faultsFrom_run (fun c hc => Mode.string_keeps ?_) line rest
  rintro rfl
  exact hbody hc

/-- At a newline and at the end of the source a comment is over. -/
theorem faultsFrom_comment {body rest : List Char} (hbody : '\n' ∉ body)
    (hrest : ∀ c ∈ rest.head?, c = '\n') (line : Nat) :
    faultsFrom .comment line (body ++ rest) = faultsFrom .code line rest := by
  have hrun : ∀ c ∈ body, Mode.comment.Keeps c := by
    intro c hc
    refine Mode.comment_keeps ?_
    rintro rfl
    exact hbody hc
  rw [faultsFrom_run hrun, List.count_eq_zero_of_not_mem hbody]
  cases rest with
  | nil => rfl
  | cons c rest =>
    rw [hrest c rfl]
    rfl

/-- Behind a slash, only another slash is read in another way than in code. -/
theorem faultsFrom_slash {rest : List Char} (h : ∀ c ∈ rest.head?, c ≠ '/') (line : Nat) :
    faultsFrom .slash line rest = faultsFrom .code line rest := by
  cases rest with
  | nil => rfl
  | cons c rest =>
    have hmode : Mode.after .slash c = Mode.after .code c := by simp [Mode.after, h c rfl]
    rw [faultsFrom, faultsFrom, hmode]
    rfl

/-! ### Elements -/

/-- A text that does not prolong an element may follow it. -/
theorem Element.EndsBefore.mayPrecede {e : Element} {rest : List Char} (h : e.EndsBefore rest) :
    e.MayPrecede rest := by
  cases e with
  | comment body => exact h
  | mark m =>
    rintro rfl c hc rfl
    exact h _ hc (Or.inr ⟨rfl, rfl⟩)
  | _ => exact trivial

/-- **Over a well-formed element** the automaton reports nothing and comes back to code. -/
theorem faultsFrom_text_append {e : Element} {rest : List Char} (hwf : e.WellFormed)
    (hmay : e.MayPrecede rest) (line : Nat) :
    faultsFrom .code line (e.text ++ rest) = faultsFrom .code (line + e.newlines) rest := by
  cases e with
  | blank c => rcases hwf with rfl | rfl | rfl <;> rfl
  | newline => rfl
  | comment body =>
    have hnone : (Element.comment body).newlines = 0 := by
      simp [Element.newlines, Element.text, List.count_eq_zero_of_not_mem hwf]
    rw [hnone]
    exact faultsFrom_comment hwf hmay line
  | mark m =>
    by_cases hslash : m = .slash
    · subst hslash
      exact faultsFrom_slash (hmay rfl) line
    · exact faultsFrom_run (Mode.code_keeps_of_mem_text hslash) line rest
  | word letters =>
    obtain ⟨c, after, rfl, hc, hafter⟩ := hwf
    refine faultsFrom_run (fun d hd => ?_) line rest
    rcases List.mem_cons.mp hd with rfl | hd
    · exact Mode.code_keeps_of_isAlphabetic hc
    · exact Mode.code_keeps_of_isWordCharacter (hafter d hd)
  | number n => exact faultsFrom_run (Mode.code_keeps_of_mem_numeral hwf) line rest
  | string body =>
    have hcount : (Element.string body).newlines = body.count '\n' := by
      simp [Element.newlines, Element.text]
    show faultsFrom .string line (body ++ ['"'] ++ rest) = _
    rw [List.append_assoc, faultsFrom_string hwf, hcount]
    rfl
  | openString body => exact hwf.elim
  | stray c => exact hwf.elim

/-- A character that can stand in code, other than a quote, is an element by itself. -/
theorem exists_wellFormed_of_isCodeCharacter {c : Char} (h : isCodeCharacter c = true)
    (hquote : c ≠ '"') : ∃ e : Element, e.WellFormed ∧ e.text = [c] := by
  rw [isCodeCharacter, Bool.or_eq_true, Bool.or_eq_true, decide_eq_true_iff] at h
  rcases h with (hlisted | hdigit) | hletter
  · have hcases : c = '\n' ∨ (c = ' ' ∨ c = '\t' ∨ c = '\r') ∨ c = '"' ∨
        (Mark.ofChar? c).isSome = true := by
      clear hquote
      revert c
      simp [Mark.ofChar?]
    rcases hcases with rfl | hblank | hc | hmark
    · exact ⟨.newline, trivial, rfl⟩
    · exact ⟨.blank c, hblank, rfl⟩
    · exact absurd hc hquote
    · obtain ⟨m, hm⟩ := Option.isSome_iff_exists.mp hmark
      exact ⟨.mark m, trivial, Mark.text_of_ofChar? hm⟩
  · exact ⟨.number ⟨[c], []⟩, ⟨by simp, by simp [hdigit]⟩, rfl⟩
  · exact ⟨.word [c], ⟨c, [], rfl, hletter, by simp⟩, rfl⟩

theorem isCodeCharacter_of_unmatched {c : Char} {rest : List Char} (h : Unmatched (c :: rest))
    (hquote : c ≠ '"') : isCodeCharacter c = false := by
  rw [Bool.eq_false_iff]
  intro hcode
  obtain ⟨e, hwf, htext⟩ := exists_wellFormed_of_isCodeCharacter hcode hquote
  exact h e hwf ⟨rest, by rw [htext]; rfl⟩

theorem filterMap_diagnostic?_of_wellFormed {e : Element} (hwf : e.WellFormed) (line : UInt32) :
    (e.event? line).toList.filterMap Event.diagnostic? = [] := by
  rcases e.denotes_or_breaks_or_silent with ⟨g, hg⟩ | ⟨f, hf⟩ | hsilent
  · rw [hg.event?]
    rfl
  · cases hf <;> exact hwf.elim
  · rw [hsilent.event?]
    rfl

/-- **Along a cut** the automaton reports the faults of the elements. -/
theorem LongestCut.faultsFrom_eq {s : List Char} {es : List Element} (h : LongestCut s es)
    (line : Nat) :
    (eventsFrom (UInt32.ofNat line) es).filterMap Event.diagnostic? =
      (faultsFrom .code line s).map fun r => ⟨r.1, UInt32.ofNat r.2⟩ := by
  induction h generalizing line with
  | nil => rfl
  | matched hlongest _ ih =>
    -- the longest element ends before the rest, so the automaton is in code again
    obtain ⟨hwf, hend⟩ := Element.longestAt_iff.mp hlongest
    rw [eventsFrom, List.filterMap_append, filterMap_diagnostic?_of_wellFormed hwf,
      faultsFrom_text_append hwf hend.mayPrecede, ← UInt32.ofNat_add, ← ih]
    rfl
  | @openString body hnone =>
    -- without a second quote the automaton is in the string when the source ends
    have hstring := faultsFrom_string (not_mem_of_unmatched hnone) line []
    have hcount : (Element.openString body).newlines = body.count '\n' := by
      simp [Element.newlines, Element.text]
    rw [List.append_nil] at hstring
    show [_] = (faultsFrom .string line body).map _
    rw [hstring, hcount, ← UInt32.ofNat_add]
    rfl
  | @stray c rest es hquote hnone _ ih =>
    -- a character that is refused changes neither the mode nor the line
    have hcode := isCodeCharacter_of_unmatched hnone hquote
    have hslash : c ≠ '/' := by
      rintro rfl
      exact absurd hcode (by decide)
    have hnewline : c ≠ '\n' := by
      rintro rfl
      exact absurd hcode (by decide)
    have hmode : Mode.after .code c = .code := by simp [Mode.after, Mode.afterCode]
    have hrejects : Mode.rejects .code c = true := by simp [Mode.rejects, hcode]
    have hcount : (Element.stray c).newlines = 0 := by
      simp [Element.newlines, Element.text, hnewline]
    rw [faultsFrom, hmode, hrejects, if_neg hnewline, if_pos rfl, List.map_cons, ← ih, eventsFrom,
      (Element.Breaks.stray c).event?, hcount]
    simp [Event.diagnostic?]

/-- No report is later than the last line. -/
theorem line_le_of_mem_faultsFrom {mode : Mode} {line : Nat} {s : List Char} {r : Fault × Nat}
    (h : r ∈ faultsFrom mode line s) : r.2 ≤ line + s.count '\n' := by
  induction s generalizing mode line with
  | nil =>
    rw [faultsFrom] at h
    split at h
    · rw [List.mem_singleton.mp h]
      exact Nat.le_add_right _ _
    · exact absurd h (by simp)
  | cons c s ih =>
    have hlater : r ∈ faultsFrom (mode.after c) (if c = '\n' then line + 1 else line) s →
        r.2 ≤ line + (c :: s).count '\n' := by
      intro hr
      have hle := ih hr
      by_cases hnewline : c = '\n'
      · rw [if_pos hnewline] at hle
        rw [hnewline, List.count_cons_self]
        omega
      · rw [if_neg hnewline] at hle
        rwa [List.count_cons_of_ne hnewline]
    rw [faultsFrom] at h
    split at h
    · rcases List.mem_cons.mp h with rfl | h
      · exact Nat.le_add_right _ _
      · exact hlater h
    · exact hlater h

/-- **The diagnostics of a scan** are the reports of the automaton: the same faults on the same
lines and in the same order.  So a source is without faults just when the automaton reports none. -/
theorem diagnostics_eq_faultsFrom (source : String) (hfit : LinesFit source) :
    (scan source).diagnostics.map (fun d => (d.fault, d.line.toNat)) =
        faultsFrom .code 1 source.toList ∧
      ((scan source).diagnostics = [] ↔ faultsFrom .code 1 source.toList = []) := by
  have hwords := (longestCut_cut source.toList).faultsFrom_eq 1
  have hdiagnostics : (scan source).diagnostics =
      (faultsFrom .code 1 source.toList).map fun r => ⟨r.1, UInt32.ofNat r.2⟩ := by
    rw [scan_diagnostics, ← hwords]
    rfl
  have hexact : (scan source).diagnostics.map (fun d => (d.fault, d.line.toNat)) =
      faultsFrom .code 1 source.toList := by
    rw [hdiagnostics, List.map_map]
    refine (List.map_congr_left fun r hr => ?_).trans (List.map_id _)
    -- no line number is cut off, because none is beyond the last line
    have hle := line_le_of_mem_faultsFrom hr
    have hlt : r.2 < UInt32.size := by
      rw [LinesFit] at hfit
      omega
    exact Prod.ext rfl (UInt32.toNat_ofNat_of_lt' hlt)
  refine ⟨hexact, ?_⟩
  rw [← hexact, List.map_eq_nil_iff]

/-- Slashes in a string and quotes in a comment leave the automaton where it is. -/
theorem diagnostics_eq_faultsFrom_slashes :
    LinesFit "\"//\n\" / @ // \"#\n#\"" ∧
      (scan "\"//\n\" / @ // \"#\n#\"").diagnostics.map (fun d => (d.fault, d.line.toNat)) =
        [(.unexpectedCharacter '@', 2), (.unexpectedCharacter '#', 3),
          (.unterminatedString, 3)] := by
  have hfit : LinesFit "\"//\n\" / @ // \"#\n#\"" := by decide +kernel
  refine ⟨hfit, ?_⟩
  rw [(diagnostics_eq_faultsFrom _ hfit).1]
  decide +kernel

end LoxScan
