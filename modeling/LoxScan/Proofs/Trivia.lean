/-
White space and comments between elements have no effect but on lines.

* `Pauses` — a scan of two texts together begins an element where they are joined, or ends there;
* `scan_insert_blank` — a blank in such a place is not noticed;
* `Finding.behind`, `findings_append` — the findings of joined texts;
* `OneLineDown` — what it means that a text moves only lines;
* `oneLineDown_of_isLineBreak` — a newline does, and so does a comment of one line;
* `scan_without_comment` — a comment that is read may be left out;
* `TriviaTransparent` — what it means that white space and comments have no effect;
* `scan_triviaTransparent` — they have none, in any source.

Design notes: an element in front of the inserted text sees a blank or a newline instead of what it
saw, and ends there.  The one exception is a comment at the end of the first text, which takes what
is inserted up to the next newline, but a comment is silent however long it is.
-/
import LoxScan.Proofs.Concatenation
import LoxScan.Proofs.Transcript

namespace LoxScan

/-! ### Where a scan pauses -/

/-- The scan of the two texts together begins an element where they are joined, or the source ends
there outside of strings. -/
def Pauses (a b : String) : Prop :=
  (∃ p ∈ placed (a ++ b).toList, p.before = a.toList) ∨ b = "" ∧ Closed a

instance (a b : String) : Decidable (Pauses a b) := inferInstanceAs (Decidable (_ ∨ _))

/-- **Where a scan pauses**, the first text is cut in front of the second as if it were alone. -/
theorem Pauses.closed_and_standBefore {a b : String} (h : Pauses a b) :
    Closed a ∧ StandBefore (cut a.toList) b.toList := by
  rcases h with ⟨p, hp, hplace⟩ | ⟨rfl, hclosed⟩
  · obtain ⟨done, rest, hstand, hbefore, hsource⟩ := mem_placed_iff.mp hp
    have hb : b.toList = p.element.text ++ rest := by
      rw [hplace, String.toList_append, List.append_assoc] at hsource
      exact List.append_cancel_left hsource
    obtain ⟨hdone, hread, -⟩ := standBefore_append.mp hstand
    rw [List.flatMap_singleton, ← hb] at hdone
    have hcut : cut a.toList = done := by rw [← hplace, hbefore, hdone.cut_flatMap]
    have hne : b.toList ≠ [] := by simp [hb, hread.text_ne_nil]
    rw [closed_iff, hcut]
    exact ⟨hdone.ne_openString hne, hdone⟩
  · exact ⟨hclosed, standBefore_cut a.toList⟩

/-! ### A blank between two texts -/

/-- What stands before a text stands before it with a blank in between. -/
theorem standBefore_append_blank {s t : List Char}
    (hopen : ∀ e ∈ cut s, ∀ body, e ≠ .openString body) (h : StandBefore (cut s) t) {c : Char}
    (hc : c = ' ' ∨ c = '\t' ∨ c = '\r') : StandBefore (cut (s ++ [c])) t := by
  rcases standBefore_blank_or hopen hc List.not_mem_nil with hstand | ⟨es, body, hs, hcut⟩
  · have hcut := hstand.cut_append
    rw [flatMap_text_cut, cut_singleton_blank hc] at hcut
    have hpoint : c ≠ '.' := by rcases hc with rfl | rfl | rfl <;> decide
    rw [hcut, standBefore_append]
    exact ⟨hstand.cons_congr hpoint t, .wellFormed hc, trivial, trivial⟩
  · have hlonger := standBefore_cut (s ++ [c])
    rw [hcut] at hlonger
    rw [hs] at h
    rw [hcut]
    have hread := (standBefore_append.mp hlonger).2.1
    have hend : (Element.comment body).EndsBefore t := (standBefore_append.mp h).2.2.1
    exact h.exchange_last (by decide) rfl rfl hread hend

/-- **A blank is not noticed** where a scan pauses. -/
theorem scan_insert_blank {a b : String} (h : Pauses a b) {c : Char}
    (hc : c = ' ' ∨ c = '\t' ∨ c = '\r') : scan (a ++ String.singleton c ++ b) = scan (a ++ b) := by
  obtain ⟨hclosed, hstand⟩ := h.closed_and_standBefore
  have hsource : (a ++ String.singleton c).toList = a.toList ++ [c] := by simp
  have hlonger : StandBefore (cut (a ++ String.singleton c).toList) b.toList := by
    rw [hsource]
    exact standBefore_append_blank (closed_iff.mp hclosed) hstand hc
  rw [scan_append_eq hlonger, scan_append_blank hclosed hc, hsource, count_append_blank hc,
    scan_append_eq hstand]

/-! ### Findings of joined texts -/

/-- The finding behind a text. -/
def Finding.behind (a : String) (f : Finding) : Finding :=
  ⟨a.length + f.position, f.event.later (a.toList.count '\n')⟩

theorem placedFrom_eq_map (before : List Char) (es : List Element) :
    placedFrom before es = (placedFrom [] es).map fun p => ⟨before ++ p.before, p.element⟩ := by
  induction es generalizing before with
  | nil => rfl
  | cons e es ih =>
    rw [placedFrom, placedFrom, ih (before ++ e.text), ih ([] ++ e.text), List.map_cons,
      List.map_map]
    simp [Function.comp_def]

theorem Placed.finding?_behind (a : String) (p : Placed) :
    (⟨a.toList ++ p.before, p.element⟩ : Placed).finding? = p.finding?.map (Finding.behind a) := by
  have hline : lineBehind (a.toList ++ p.before) =
      lineBehind p.before + UInt32.ofNat (a.toList.count '\n') := by
    rw [lineBehind, lineBehind, List.count_append, UInt32.ofNat_add, UInt32.add_assoc,
      UInt32.add_comm (UInt32.ofNat _)]
  simp only [finding?, event?, hline, Element.event?_add, Option.map_map, Function.comp_def,
    Finding.behind, List.length_append, String.length_toList]

/-- **The findings of joined texts** are those of both if the first is cut as if it were alone. -/
theorem findings_append {a b : String} (h : StandBefore (cut a.toList) b.toList) :
    findings (a ++ b) = findings a ++ (findings b).map (Finding.behind a) := by
  have hcut := h.cut_append
  rw [flatMap_text_cut] at hcut
  have hplaced : placed (a ++ b).toList = placed a.toList ++
      (placed b.toList).map fun p => ⟨a.toList ++ p.before, p.element⟩ := by
    rw [String.toList_append, placed, hcut, placedFrom_append, flatMap_text_cut, List.nil_append,
      placedFrom_eq_map a.toList, placed, placed]
  rw [findings, hplaced, List.filterMap_append, List.filterMap_map, findings, findings,
    List.map_filterMap]
  simp only [Function.comp_def, Placed.finding?_behind]

theorem position_lt_of_mem_findings {source : String} {f : Finding} (h : f ∈ findings source) :
    f.position < source.length := by
  obtain ⟨p, hp, hpf⟩ := List.mem_filterMap.mp h
  have hstop := lt_stop_of_mem_placed hp
  rw [String.length_toList] at hstop
  rw [(Placed.finding?_eq_some hpf).2]
  exact Nat.lt_of_lt_of_le hstop.1 hstop.2

/-- At the end of a source, a comment is no finding. -/
theorem findings_of_comment {source : String} {es : List Element} {body : List Char}
    (h : cut source.toList = es ++ [.comment body]) :
    findings source = (placedFrom [] es).filterMap Placed.finding? := by
  rw [findings, placed, h, placedFrom_append, List.filterMap_append]
  exact List.append_nil _

/-- A blank, and a text in which nothing is found, may stand at the end of a closed source. -/
theorem findings_append_blank {a : String} (ha : Closed a) {t : String}
    (ht : '\n' ∉ t.toList) (hsilent : findings (" " ++ t) = []) :
    findings (a ++ " " ++ t) = findings a := by
  rcases standBefore_blank_or (closed_iff.mp ha) (Or.inl rfl) ht with
    hstand | ⟨es, body, hcut, hlonger⟩
  · have hjoined : StandBefore (cut a.toList) (" " ++ t).toList := by
      rw [String.toList_append]
      exact hstand
    rw [String.append_assoc, findings_append hjoined, hsilent]
    exact List.append_nil _
  · have hjoined : cut (a ++ " " ++ t).toList = es ++ [.comment (body ++ ' ' :: t.toList)] := by
      rw [String.append_assoc, String.toList_append, String.toList_append]
      exact hlonger
    rw [findings_of_comment hjoined, findings_of_comment hcut]

/-! ### A line between two texts -/

/-- The text is a newline, or it is a comment of one line with a space in front of it. -/
def IsLineBreak (w : String) : Prop :=
  w = "\n" ∨ ∃ text : String, '\n' ∉ text.toList ∧ w = " //" ++ text ++ "\n"

/-- The finding with a text of `k` characters and one line inserted in front of position `n`. -/
def Finding.moved (n k : Nat) (f : Finding) : Finding :=
  if f.position < n then f else ⟨f.position + k, f.event.later 1⟩

/-- With a text inserted between two others, all findings at its place and behind it are one line
further down, and nothing else changes. -/
structure OneLineDown (a w b : String) : Prop where
  /-- The findings are the same, and those behind the inserted text are moved by it. -/
  findings_eq : findings (a ++ w ++ b) = (findings (a ++ b)).map (Finding.moved a.length w.length)
  /-- The tokens are among the findings, but for the end of the input. -/
  tokens : (scan (a ++ b)).tokens = (findings (a ++ b)).filterMap (·.event.token?) ++
    [Token.endOfInput (scan (a ++ b)).lastLine]
  /-- So they are with the inserted text, and the input ends one line further down. -/
  tokens_moved : (scan (a ++ w ++ b)).tokens =
    ((findings (a ++ b)).map (Finding.moved a.length w.length)).filterMap (·.event.token?) ++
      [(Token.endOfInput (scan (a ++ b)).lastLine).later 1]
  /-- The diagnostics are the other findings. -/
  diagnostics : (scan (a ++ b)).diagnostics = (findings (a ++ b)).filterMap (·.event.diagnostic?)
  /-- So they are with the inserted text. -/
  diagnostics_moved : (scan (a ++ w ++ b)).diagnostics =
    ((findings (a ++ b)).map (Finding.moved a.length w.length)).filterMap (·.event.diagnostic?)
  /-- An open string is behind the inserted text. -/
  open_behind : ∀ f ∈ findings (a ++ b), ∀ line, f.event = .fault ⟨.unterminatedString, line⟩ →
    a.length ≤ f.position
  /-- One line further down is the next line. -/
  token_line : ∀ t ∈ (scan (a ++ b)).tokens, (t.later 1).line.toNat = t.line.toNat + 1
  diagnostic_line : ∀ d ∈ (scan (a ++ b)).diagnostics, (d.later 1).line.toNat = d.line.toNat + 1

theorem IsLineBreak.count {w : String} (h : IsLineBreak w) : w.toList.count '\n' = 1 := by
  rcases h with rfl | ⟨text, htext, rfl⟩
  · rfl
  · have hnone : text.toList.count '\n' = 0 := List.count_eq_zero.mpr htext
    simp [hnone]

/-- In a space and a comment nothing is found. -/
theorem findings_comment {text : String} (htext : '\n' ∉ text.toList) :
    findings (" " ++ ("//" ++ text)) = [] := by
  have hcomment : cut ('/' :: '/' :: text.toList) = [.comment text.toList] := by
    have hcut := cut_text_append (e := .comment text.toList) htext (Element.endsBefore_nil htext)
    rwa [cut_nil, List.append_nil] at hcut
  have hsource : (" " ++ ("//" ++ text)).toList =
      (Element.blank ' ').text ++ '/' :: '/' :: text.toList := by simp [Element.text]
  have hcut : cut (" " ++ ("//" ++ text)).toList = [.blank ' '] ++ [.comment text.toList] := by
    have hblank : (Element.blank ' ').WellFormed := Or.inl rfl
    rw [hsource, cut_text_append hblank trivial, hcomment]
    rfl
  rw [findings_of_comment hcut]
  rfl

/-- Behind a newline anything may follow, and nothing is found in it. -/
theorem findings_append_newline {a : String} (ha : Closed a) (b : String) :
    findings (a ++ "\n") = findings a ∧ StandBefore (cut (a ++ "\n").toList) b.toList := by
  have hopen := closed_iff.mp ha
  have hstand : StandBefore (cut a.toList) "\n".toList :=
    (standBefore_cut a.toList).cons_newline hopen []
  have hsilent : findings "\n" = [] := by decide +kernel
  rw [findings_append hstand, hsilent, String.toList_append]
  exact ⟨List.append_nil _, standBefore_behind_newline hopen b.toList⟩

/-- So it is with any line break. -/
theorem findings_append_lineBreak {a : String} (ha : Closed a) {w : String} (hw : IsLineBreak w)
    (b : String) : findings (a ++ w) = findings a ∧ StandBefore (cut (a ++ w).toList) b.toList := by
  rcases hw with rfl | ⟨text, htext, rfl⟩
  · exact findings_append_newline ha b
  · have hnone : '\n' ∉ ("//" ++ text).toList := by simp [htext]
    have hsame := findings_append_blank ha hnone (findings_comment htext)
    have hclosed : Closed (a ++ " " ++ ("//" ++ text)) := by
      rw [Closed, Scan.diagnostics, ← filterMap_findings, hsame, filterMap_findings]
      exact ha
    have hlonger := findings_append_newline hclosed b
    rw [hsame] at hlonger
    have htext : a ++ (" //" ++ text ++ "\n") = a ++ " " ++ ("//" ++ text) ++ "\n" := by
      simp only [String.append_assoc]
      rfl
    rwa [htext]

/-- **A line break moves** the findings at its place and behind it. -/
theorem findings_insert_lineBreak {a b w : String} (h : Pauses a b) (hw : IsLineBreak w) :
    findings (a ++ w ++ b) = (findings (a ++ b)).map (Finding.moved a.length w.length) := by
  obtain ⟨hclosed, hstand⟩ := h.closed_and_standBefore
  obtain ⟨hsame, hlonger⟩ := findings_append_lineBreak hclosed hw b
  have hbefore : (findings a).map (Finding.moved a.length w.length) = findings a := by
    refine (List.map_congr_left fun f hf => ?_).trans (List.map_id _)
    rw [Finding.moved, if_pos (position_lt_of_mem_findings hf), id]
  have hbehind : ∀ f : Finding, (f.behind a).moved a.length w.length = f.behind (a ++ w) := by
    intro f
    have hnot : ¬ a.length + f.position < a.length := by omega
    simp only [Finding.behind, Finding.moved, if_neg hnot, Event.later_later, String.length_append,
      String.toList_append, List.count_append, hw.count, Finding.mk.injEq]
    exact ⟨by omega, congrArg (f.event.later ·) (Nat.add_comm _ _)⟩
  rw [findings_append hlonger, hsame, findings_append hstand, List.map_append, hbefore,
    List.map_map]
  simp only [Function.comp_def, hbehind]

/-- **A line break moves only lines** where a scan pauses. -/
theorem oneLineDown_of_isLineBreak {a b w : String} (h : Pauses a b) (hw : IsLineBreak w)
    (hfit : LinesFit (a ++ w ++ b)) : OneLineDown a w b := by
  have hmoved := findings_insert_lineBreak h hw
  have hcount : (a ++ w ++ b).toList.count '\n' = (a ++ b).toList.count '\n' + 1 := by
    simp only [String.toList_append, List.count_append, hw.count]
    omega
  rw [LinesFit, hcount] at hfit
  constructor
  case findings_eq => exact hmoved
  case tokens => rw [filterMap_findings, Scan.tokens]
  case tokens_moved =>
    have hlast : (scan (a ++ w ++ b)).lastLine = (scan (a ++ b)).lastLine + UInt32.ofNat 1 := by
      rw [scan_lastLine_eq, scan_lastLine_eq, lineBehind, lineBehind, hcount, UInt32.ofNat_add,
        UInt32.add_assoc]
    rw [← hmoved, filterMap_findings, Scan.tokens, hlast]
    rfl
  case diagnostics => rw [filterMap_findings, Scan.diagnostics]
  case diagnostics_moved => rw [← hmoved, filterMap_findings, Scan.diagnostics]
  case open_behind =>
    intro f hf line hevent
    obtain ⟨hclosed, hstand⟩ := h.closed_and_standBefore
    rw [findings_append hstand, List.mem_append] at hf
    rcases hf with hf | hf
    · have hmem : ⟨.unterminatedString, line⟩ ∈ (scan a).diagnostics := by
        rw [Scan.diagnostics, ← filterMap_findings]
        exact List.mem_filterMap.mpr ⟨f, hf, by rw [hevent]; rfl⟩
      exact absurd rfl (hclosed _ hmem)
    · obtain ⟨g, _, rfl⟩ := List.mem_map.mp hf
      exact Nat.le_add_right _ _
  case token_line => exact toNat_later_of_mem_tokens hfit
  case diagnostic_line => exact toNat_later_of_mem_diagnostics hfit

/-! ### Comments -/

/-- What stands before a comment stands before what follows the comment. -/
theorem StandBefore.without_comment {es : List Element} {body rest : List Char}
    (h : StandBefore (es ++ [.comment body]) rest) : StandBefore es rest := by
  obtain ⟨hes, -, hend, -⟩ := standBefore_append.mp h
  have halone : StandBefore es [] := StandBefore.left (s := []) hes
  cases rest with
  | nil => exact halone
  | cons c rest =>
    obtain rfl : c = '\n' := hend c rfl
    exact halone.cons_newline (hes.ne_openString (by simp [Element.text])) rest

/-- **A comment may be left out.** -/
theorem scan_without_comment {es : List Element} {body rest : List Char}
    (h : StandBefore (es ++ [.comment body]) rest) :
    scan (String.ofList (es.flatMap Element.text ++ '/' :: '/' :: body ++ rest)) =
      scan (String.ofList (es.flatMap Element.text ++ rest)) := by
  have hnone : body.count '\n' = 0 := by
    cases (standBefore_append.mp h).2.1 with
    | wellFormed hbody => exact List.count_eq_zero.mpr hbody
  have hsilent : ∀ line, eventsFrom line [.comment body] = [] := fun _ => rfl
  have hline : ∀ line, lineAfter line [.comment body] = line := by
    intro line
    have hnewlines : (Element.comment body).newlines = 0 := by
      simp [Element.newlines, Element.text, hnone]
    rw [lineAfter, lineAfter, hnewlines]
    exact UInt32.add_zero line
  have hcut := h.cut_append
  simp only [List.flatMap_append, List.flatMap_singleton, Element.text] at hcut
  refine scan_eq_of_events ?_ (by simp [hnone])
  rw [scan_events, scan_events, String.toList_ofList, String.toList_ofList, hcut,
    h.without_comment.cut_append, List.append_assoc, eventsFrom_append, eventsFrom_append,
    eventsFrom_append, hsilent, hline, List.nil_append]

/-! ### Trivia -/

/-- White space and comments between the elements of a source have no effect but on lines. -/
structure TriviaTransparent (source : String) : Prop where
  /-- A blank where the scan pauses is not noticed. -/
  blank : ∀ a b, source = a ++ b → Pauses a b → ∀ c, c = ' ' ∨ c = '\t' ∨ c = '\r' →
    scan (a ++ String.singleton c ++ b) = scan source
  /-- A newline there moves what follows one line down, and so does a line with a comment. -/
  lineBreak : ∀ a b, source = a ++ b → Pauses a b → ∀ w, IsLineBreak w → LinesFit (a ++ w ++ b) →
    OneLineDown a w b
  /-- A comment reaches to the next newline, and it may be left out or say something else. -/
  comment : ∀ before body, ⟨before, .comment body⟩ ∈ placed source.toList → ∃ rest,
    source.toList = before ++ '/' :: '/' :: body ++ rest ∧ (∀ c ∈ rest.head?, c = '\n') ∧
      scan (String.ofList (before ++ rest)) = scan source ∧
      ∀ text, '\n' ∉ text →
        scan (String.ofList (before ++ '/' :: '/' :: text ++ rest)) = scan source

/-- **Trivia is transparent**, in every source. -/
theorem scan_triviaTransparent (source : String) : TriviaTransparent source where
  blank := by
    rintro a b rfl hpause c hc
    exact scan_insert_blank hpause hc
  lineBreak := by
    rintro a b rfl hpause w hw hfit
    exact oneLineDown_of_isLineBreak hpause hw hfit
  comment := by
    intro before body hmem
    obtain ⟨done, rest, hstand, rfl, hsource⟩ := mem_placed_iff.mp hmem
    have hend : (Element.comment body).EndsBefore rest := (standBefore_append.mp hstand).2.2.1
    have hshorter := scan_without_comment hstand
    have hwhole : String.ofList (done.flatMap Element.text ++ '/' :: '/' :: body ++ rest) =
        source := by
      rw [← String.toList_inj, String.toList_ofList, hsource]
      rfl
    rw [hwhole] at hshorter
    refine ⟨rest, hsource, hend, hshorter.symm, fun text htext => ?_⟩
    have hother : StandBefore (done ++ [.comment text]) rest :=
      hstand.exchange_last (by decide) rfl rfl (.wellFormed htext) hend
    rw [scan_without_comment hother, hshorter]

-- Behind a slash the space in front of the comment is needed.
example : Pauses "/" "b" ∧ (scan ("/" ++ " //\n" ++ "b")).tokens.length = 3 ∧
    (scan ("/" ++ "//\n" ++ "b")).tokens.length = 2 := by decide +kernel

end LoxScan
