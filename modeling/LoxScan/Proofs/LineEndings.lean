/-
The style of line endings is not noticed.

* `addReturns`, `withReturns` — a text with a carriage return before each newline;
* `Returned` — the elements of a text, and those of the text with carriage returns;
* `returned_cut` — these are the elements into which the two texts are cut;
* `Returned.eventsFrom_eq` — they have the same events, but for the text of strings;
* `shownLine?_addReturns` — a line shows the same when the white space at its end is taken off;
* `scan_withReturns` — so a scan and its reports stay as they are, but for the text of strings.

Design notes: outside of strings a carriage return is a blank of its own, unless a comment stands
before it, which then ends in it.  No other element can go on with a carriage return or a newline,
so every element ends where it did.
-/
import LoxScan.Diagnostic.Report
import LoxScan.Proofs.Concatenation
import LoxScan.Proofs.Ending
import LoxScan.Proofs.SourceLine
import LoxScan.Proofs.Utf8

namespace LoxScan

/-! ### Texts with carriage returns -/

/-- The text with a carriage return before each newline. -/
def addReturns (s : List Char) : List Char :=
  s.flatMap fun c => if c = '\n' then ['\r', '\n'] else [c]

/-- The source with a carriage return before each newline. -/
def withReturns (source : String) : String := String.ofList (addReturns source.toList)

@[simp] theorem toList_withReturns (source : String) :
    (withReturns source).toList = addReturns source.toList := String.toList_ofList

@[simp] theorem addReturns_nil : addReturns [] = [] := rfl

@[simp] theorem addReturns_newline_cons (s : List Char) :
    addReturns ('\n' :: s) = '\r' :: '\n' :: addReturns s := rfl

theorem addReturns_cons {c : Char} (h : c ≠ '\n') (s : List Char) :
    addReturns (c :: s) = c :: addReturns s := by
  simp [addReturns, h]

@[simp] theorem addReturns_append (s t : List Char) :
    addReturns (s ++ t) = addReturns s ++ addReturns t := List.flatMap_append

theorem addReturns_of_not_mem {s : List Char} (h : '\n' ∉ s) : addReturns s = s := by
  induction s with
  | nil => rfl
  | cons c s ih =>
    rw [List.mem_cons, not_or] at h
    rw [addReturns_cons (Ne.symm h.1), ih h.2]

/-- Only carriage returns are new. -/
theorem count_addReturns {c : Char} (h : c ≠ '\r') (s : List Char) :
    (addReturns s).count c = s.count c := by
  induction s with
  | nil => rfl
  | cons d s ih =>
    by_cases hd : d = '\n'
    · rw [hd, addReturns_newline_cons, List.count_cons_of_ne (Ne.symm h), List.count_cons, ih,
        List.count_cons]
    · rw [addReturns_cons hd, List.count_cons, ih, List.count_cons]

theorem not_mem_addReturns {c : Char} (h : c ≠ '\r') {s : List Char} (hs : c ∉ s) :
    c ∉ addReturns s := by
  rw [← List.count_eq_zero] at hs ⊢
  rw [count_addReturns h, hs]

/-- A fraction begins where one began. -/
theorem beginsFraction_addReturns_iff (s : List Char) :
    BeginsFraction (addReturns s) ↔ BeginsFraction s := by
  rcases s with _ | ⟨c, _ | ⟨d, s⟩⟩
  · exact Iff.rfl
  · by_cases hc : c = '\n'
    · rw [hc]
      simp
    · rw [addReturns_cons hc, addReturns_nil]
  · by_cases hc : c = '\n'
    · rw [hc]
      simp
    · by_cases hd : d = '\n'
      · rw [addReturns_cons hc, hd]
        simp
      · rw [addReturns_cons hc, addReturns_cons hd, beginsFraction_cons_cons,
          beginsFraction_cons_cons]

/-! ### Elements with carriage returns -/

namespace Element

/-- The element with a carriage return before each newline that it holds. -/
def withReturns : Element → Element
  | string body => string (addReturns body)
  | openString body => openString (addReturns body)
  | e => e

/-- The element is no newline, no comment and no string. -/
def IsPlain : Element → Prop
  | newline | comment _ | string _ | openString _ => False
  | _ => True

/-- Only newlines and strings hold a newline. -/
theorem newline_not_mem_text {e : Element} (hread : e.Readable) (hplain : e.IsPlain) :
    '\n' ∉ e.text := by
  cases hread with
  | wellFormed hwf =>
    cases e with
    | blank c => rcases hwf with rfl | rfl | rfl <;> simp [text]
    | mark m => cases m <;> simp [text, Mark.text]
    | word letters =>
      obtain ⟨c, rest, rfl, hc, hrest⟩ := hwf
      intro hmem
      rcases List.mem_cons.mp hmem with rfl | hmem
      · exact absurd hc (by decide +kernel)
      · exact absurd (hrest _ hmem) (by decide +kernel)
    | number n =>
      intro hmem
      rcases Numeral.eq_point_or_isDigit hwf hmem with hpoint | hdigit
      · exact absurd hpoint (by decide)
      · exact absurd hdigit (by decide)
    | newline => exact hplain.elim
    | comment body => exact hplain.elim
    | string body => exact hplain.elim
    | openString body => exact hplain.elim
    | stray c => exact hwf.elim
  | stray hlead =>
    intro hmem
    rw [← List.mem_singleton.mp hmem] at hlead
    exact absurd hlead (by decide)
  | openString _ => exact hplain.elim

/-- A carriage return prolongs an element no more than a newline does, comments apart. -/
theorem EndsBefore.addReturns {e : Element} {rest : List Char} (hplain : e.IsPlain)
    (hend : e.EndsBefore rest) : e.EndsBefore (addReturns rest) := by
  cases rest with
  | nil => exact hend
  | cons c rest =>
    by_cases hc : c = '\n'
    · rw [hc, addReturns_newline_cons]
      refine endsBefore_separator ?_ (by simp) ?_ _
      · rintro body rfl
        exact hplain
      · rintro body rfl
        exact hplain.elim
    · have hpoint := beginsFraction_addReturns_iff (c :: rest)
      rw [addReturns_cons hc] at hpoint ⊢
      exact (endsBefore_congr (by rfl) hpoint).mpr hend

theorem Readable.withReturns {e : Element} (h : e.Readable) : e.withReturns.Readable := by
  cases e with
  | string body =>
    cases h with
    | wellFormed hwf =>
      have hbody : (Element.string (addReturns body)).WellFormed :=
        not_mem_addReturns (by decide) hwf
      exact .wellFormed hbody
  | openString body =>
    cases h with
    | wellFormed hwf => exact hwf.elim
    | openString hbody => exact .openString (not_mem_addReturns (by decide) hbody)
  | _ => exact h

theorem Readable.newline_not_mem_of_comment {body : List Char} (h : (comment body).Readable) :
    '\n' ∉ body := by
  cases h with
  | wellFormed hwf => exact hwf

/-- Newlines apart, the text of an element with carriage returns is its text with carriage
returns. -/
theorem Readable.text_withReturns {e : Element} (h : e.Readable) (hne : e ≠ .newline) :
    e.withReturns.text = LoxScan.addReturns e.text := by
  cases e with
  | newline => exact absurd rfl hne
  | comment body =>
    have htext : '\n' ∉ (Element.comment body).text := by
      simpa [text] using h.newline_not_mem_of_comment
    exact (addReturns_of_not_mem htext).symm
  | string body => simp [Element.withReturns, text, addReturns_cons]
  | openString body => simp [Element.withReturns, text, addReturns_cons]
  | _ => exact (addReturns_of_not_mem (newline_not_mem_text h trivial)).symm

/-- Only a comment in front of a newline does not end where it did. -/
theorem EndsBefore.withReturns {e : Element} {rest : List Char} (hend : e.EndsBefore rest)
    (hcomment : ∀ body, e = .comment body → rest = []) :
    e.withReturns.EndsBefore (LoxScan.addReturns rest) := by
  cases e with
  | newline => trivial
  | comment body =>
    rw [hcomment body rfl]
    intro c hc
    cases hc
  | string body => trivial
  | openString body =>
    obtain rfl : rest = [] := hend
    exact rfl
  | _ => exact hend.addReturns trivial

end Element

/-! ### The two cuts -/

/-- The elements of a text, and those of the text with carriage returns. -/
inductive Returned : List Element → List Element → Prop
  | nil : Returned [] []
  /-- The carriage return is a blank. -/
  | newline {es fs : List Element} :
      Returned es fs → Returned (.newline :: es) (.blank '\r' :: .newline :: fs)
  /-- The carriage return is the end of a comment. -/
  | comment {body : List Char} {es fs : List Element} :
      Returned es fs →
        Returned (.comment body :: .newline :: es) (.comment (body ++ ['\r']) :: .newline :: fs)
  /-- The carriage return is in a string, or there is none. -/
  | other {e : Element} {es fs : List Element} :
      Returned es fs → Returned (e :: es) (e.withReturns :: fs)

theorem cut_return_newline_cons (s : List Char) :
    cut ('\r' :: '\n' :: s) = .blank '\r' :: .newline :: cut s := by
  have hblank : (Element.blank '\r').WellFormed := Or.inr (Or.inr rfl)
  have hcut : cut ((Element.blank '\r').text ++ '\n' :: s) = _ := cut_text_append hblank trivial
  rw [cut_newline_cons] at hcut
  exact hcut

/-- A comment at the end of a line takes the carriage return there. -/
theorem cut_comment_return {body : List Char} (hbody : '\n' ∉ body) (s : List Char) :
    cut ((Element.comment body).text ++ '\r' :: '\n' :: s) =
      .comment (body ++ ['\r']) :: .newline :: cut s := by
  have hwf : (Element.comment (body ++ ['\r'])).WellFormed := by
    intro hmem
    rcases List.mem_append.mp hmem with hmem | hmem
    · exact hbody hmem
    · exact absurd (List.mem_singleton.mp hmem) (by decide)
  have hend : (Element.comment (body ++ ['\r'])).EndsBefore ('\n' :: s) := by
    intro c hc
    exact (Option.some.inj hc).symm
  have hcut := cut_text_append hwf hend
  rw [cut_newline_cons] at hcut
  rw [← hcut]
  simp [Element.text]

/-- **The two cuts** differ in the carriage returns only. -/
theorem returned_cut (s : List Char) : Returned (cut s) (cut (addReturns s)) := by
  induction s using cut_induction with
  | nil =>
    rw [addReturns_nil, cut_nil]
    exact .nil
  | element e rest hread hend ih =>
    have hrest := ih rest (List.suffix_refl rest)
    rw [cut_text_append_of_readable hread hend, addReturns_append]
    by_cases hnewline : e = .newline
    · subst hnewline
      show Returned _ (cut ('\r' :: '\n' :: addReturns rest))
      rw [cut_return_newline_cons]
      exact .newline hrest
    · rw [← hread.text_withReturns hnewline]
      by_cases hcomment : ∃ body, e = .comment body ∧ rest ≠ []
      · obtain ⟨body, rfl, hne⟩ := hcomment
        obtain ⟨c, rest, rfl⟩ := List.exists_cons_of_ne_nil hne
        obtain rfl : c = '\n' := hend c rfl
        rw [cut_newline_cons, addReturns_newline_cons]
        show Returned _ (cut ((Element.comment body).text ++ '\r' :: '\n' :: addReturns rest))
        rw [cut_comment_return hread.newline_not_mem_of_comment]
        -- the newline is taken together with the comment
        exact .comment (ih rest (List.suffix_cons '\n' rest))
      · have hcomment : ∀ body, e = .comment body → rest = [] := fun body he =>
          Decidable.byContradiction fun hne => hcomment ⟨body, he, hne⟩
        rw [cut_text_append_of_readable hread.withReturns (hend.withReturns hcomment)]
        exact .other hrest

/-! ### The two scans -/

/-- The value with a carriage return before each newline. -/
def Literal.withReturns : Literal → Literal
  | text value => text (LoxScan.withReturns value)
  | number value => number value

/-- The token with carriage returns, which only strings have. -/
def Token.withReturns (t : Token) : Token :=
  if t.kind = .string then
    { t with
      lexeme := LoxScan.withReturns t.lexeme
      literal := t.literal.map Literal.withReturns }
  else t

/-- The event with carriage returns, which no diagnostic has. -/
def Event.withReturns : Event → Event
  | token t => token t.withReturns
  | fault d => fault d

theorem Token.withReturns_of_ne {t : Token} (h : t.kind ≠ .string) : t.withReturns = t := if_neg h

theorem Element.newlines_withReturns (e : Element) : e.withReturns.newlines = e.newlines := by
  have hcount := fun body => count_addReturns (c := '\n') (by decide) body
  cases e <;> simp [withReturns, newlines, text, hcount]

theorem Element.event?_withReturns (e : Element) (line : UInt32) :
    e.withReturns.event? line = (e.event? line).map Event.withReturns := by
  rcases e.denotes_or_breaks_or_silent with ⟨g, hg⟩ | ⟨f, hf⟩ | hsilent
  · have hevent := hg.event? line
    rw [hevent, Option.map_some, Event.withReturns]
    cases hg with
    | string body =>
      show (Element.string (addReturns body)).event? line = _
      rw [(Denotes.string (addReturns body)).event? line]
      simp [Sign.onLine, Token.withReturns, Literal.withReturns, LoxScan.withReturns,
        addReturns_cons]
    | _ =>
      rw [Token.withReturns_of_ne (by simp [Sign.onLine])]
      exact hevent
  · cases hf with
    | openString body =>
      have hnewlines := newlines_withReturns (.openString body)
      show (Element.openString (addReturns body)).event? line = _
      rw [(Breaks.openString (addReturns body)).event? line]
      rw [show (Element.openString (addReturns body)).newlines = _ from hnewlines]
      rfl
    | stray c => rfl
  · cases hsilent <;> rfl

/-- **The events** are the same but for the text of strings. -/
theorem Returned.eventsFrom_eq {es fs : List Element} (h : Returned es fs) (line : UInt32) :
    eventsFrom line fs = (eventsFrom line es).map Event.withReturns := by
  induction h generalizing line with
  | nil => rfl
  | newline _ ih =>
    have hblank : line + UInt32.ofNat (Element.blank '\r').newlines = line := UInt32.add_zero line
    rw [eventsFrom, hblank]
    exact ih _
  | @comment body es fs _ ih =>
    have hbody : (Element.comment (body ++ ['\r'])).newlines = (Element.comment body).newlines := by
      simp [Element.newlines, Element.text]
    rw [eventsFrom, hbody]
    exact ih _
  | other _ ih =>
    rw [eventsFrom, eventsFrom, List.map_append, Element.newlines_withReturns, ih,
      Element.event?_withReturns, Option.toList_map]

theorem scan_withReturns_events (source : String) :
    (scan (withReturns source)).events = (scan source).events.map Event.withReturns := by
  rw [scan_events, scan_events, toList_withReturns]
  exact (returned_cut source.toList).eventsFrom_eq 1

theorem scan_withReturns_lastLine (source : String) :
    (scan (withReturns source)).lastLine = (scan source).lastLine := by
  rw [scan_lastLine_eq, scan_lastLine_eq, toList_withReturns, lineBehind,
    count_addReturns (by decide), lineBehind]

theorem scan_withReturns_tokens (source : String) :
    (scan (withReturns source)).tokens = (scan source).tokens.map Token.withReturns := by
  have htoken : Event.token? ∘ Event.withReturns =
      fun e : Event => e.token?.map Token.withReturns := by
    funext e
    cases e <;> rfl
  have hend : (Token.endOfInput (scan source).lastLine).withReturns =
      Token.endOfInput (scan source).lastLine :=
    Token.withReturns_of_ne (by simp [Token.endOfInput])
  rw [Scan.tokens, Scan.tokens, scan_withReturns_events, scan_withReturns_lastLine,
    List.filterMap_map, htoken, ← List.map_filterMap, List.map_append, List.map_singleton, hend]

theorem scan_withReturns_diagnostics (source : String) :
    (scan (withReturns source)).diagnostics = (scan source).diagnostics := by
  have hdiagnostic : Event.diagnostic? ∘ Event.withReturns = Event.diagnostic? := by
    funext e
    cases e <;> rfl
  rw [Scan.diagnostics, Scan.diagnostics, scan_withReturns_events, List.filterMap_map,
    hdiagnostic]

/-! ### What a report shows -/

/-- A line without the white space at its end. -/
def shownLine? (s : List Char) (n : Nat) : Option (List Char) :=
  (lineAt? s n).map (dropEndWhile Unicode.isWhiteSpace)

/-- A carriage return at the end of a text is not shown. -/
theorem shownLine?_append_return {s : List Char} (h : '\n' ∉ s) (n : Nat) :
    shownLine? (s ++ ['\r']) n = shownLine? s n := by
  have hreturn : '\n' ∉ s ++ ['\r'] := by simpa using h
  cases n with
  | zero => rfl
  | succ n =>
    rw [shownLine?, shownLine?, lineAt?, lineAt?, List.splitOn_eq_singleton h,
      List.splitOn_eq_singleton hreturn]
    cases n with
    | zero =>
      simp only [List.getElem?_cons_zero, Option.map_some]
      rw [dropFinal_append_self, dropEndWhile_dropFinal (by decide)]
    | succ n => simp

/-- **A line is shown** as it was. -/
theorem shownLine?_addReturns (s : List Char) (n : Nat) :
    shownLine? (addReturns s) n = shownLine? s n := by
  induction s using splitOn_induction '\n' generalizing n with
  | whole line h => rw [addReturns_of_not_mem h]
  | piece line rest h ih =>
    have hcount : (line ++ ['\r']).count '\n' = line.count '\n' := by simp
    have hsplit : addReturns (line ++ '\n' :: rest) =
        (line ++ ['\r']) ++ '\n' :: addReturns rest := by
      rw [addReturns_append, addReturns_of_not_mem h, addReturns_newline_cons]
      simp
    rw [hsplit]
    rcases Nat.lt_or_ge (1 + line.count '\n') n with hlater | hfirst
    · rw [shownLine?, shownLine?, lineAt?_append_of_lt hlater,
        lineAt?_append_of_lt (by rwa [hcount]), hcount]
      exact ih _
    · rw [shownLine?, shownLine?, lineAt?_append_of_le hfirst,
        lineAt?_append_of_le (by rwa [hcount])]
      exact shownLine?_append_return h n

theorem Diagnostic.sourceRow?_eq (d : Diagnostic) (source : String) :
    d.sourceRow? source = (shownLine? source.toList d.line.toNat).map fun line =>
      if String.ofList line = "" then d.label ++ " |"
      else d.label ++ " | " ++ String.ofList line := by
  rw [sourceRow?, getLine?, shownLine?, Option.map_map, Option.map_map]
  congr 1
  funext line
  simp [trimEnd]

theorem Diagnostic.report_withReturns (d : Diagnostic) (source file : String) :
    d.report (withReturns source) file = d.report source file := by
  rw [report, report, rows, rows, sourceRow?_eq, sourceRow?_eq, toList_withReturns,
    shownLine?_addReturns]

/-- **The style of line endings is not noticed**: a carriage return before each newline leaves the
diagnostics, their reports and the tokens as they are, but for the text of strings, where each
newline gets its carriage return as well. -/
theorem scan_withReturns (source : String) :
    (scan (withReturns source)).diagnostics = (scan source).diagnostics ∧
      (∀ d ∈ (scan source).diagnostics, ∀ file,
        d.report (withReturns source) file = d.report source file) ∧
      (scan (withReturns source)).tokens = (scan source).tokens.map Token.withReturns :=
  ⟨scan_withReturns_diagnostics source, fun d _ file => d.report_withReturns source file,
    scan_withReturns_tokens source⟩

end LoxScan
