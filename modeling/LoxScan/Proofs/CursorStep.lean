/-
What a cursor does at each place of a scan.

* `Loop.Fits`, `Stage.Fits` — what was read of an element at each stage, and what may follow;
* `Cursor.Within` — a cursor that has noted all elements in front of the one in which it stands;
* `Cursor.Settled` — a cursor between two elements;
* `Cursor.Outcome` — the three things that a step inside of an element can do: it reads a character,
  it goes on to another stage, or it notes the element and is done with it;
* `Within.step` — such a step does not fail, and does one of the three.

Design notes: that an element is done with, is said by the two conditions under which an element is
the first one of a cut: it is readable, and ends before the rest.  So no step needs to be compared
with the reading of elements.
-/
import LoxScan.Proofs.Concatenation
import LoxScan.Proofs.Offsets

namespace LoxScan

/-! ### What was read -/

/-- What a loop has read of an element in front of `rest`. -/
def Loop.Fits (taken rest : List Char) : Loop → Prop
  | comment => ∃ body, taken = '/' :: '/' :: body ∧ '\n' ∉ body
  | string => ∃ body, taken = '"' :: body ∧ '"' ∉ body
  | whole => Numeral.WellFormed ⟨taken, []⟩
  | fraction => ∃ whole fraction, taken = whole ++ '.' :: fraction ∧
      Numeral.WellFormed ⟨whole, fraction⟩ ∧ (fraction = [] → ∃ d ∈ rest.head?, d.isDigit = true)
  | word => (Element.word taken).WellFormed

/-- What was read of an element at a stage, in front of `rest`. -/
def Stage.Fits (taken rest : List Char) : Stage → Prop
  | between | done => False
  | element => taken = [] ∧ rest ≠ []
  | lead c => taken = [c]
  | test l => l.Fits taken rest
  | body l c => l.Fits taken rest ∧ l.takes c = true ∧ rest.head? = some c
  | behind l => l.Fits taken rest ∧ ∀ c ∈ rest.head?, l.takes c = false
  | closing => ∃ body, taken = '"' :: body ++ ['"'] ∧ '"' ∉ body
  | numeral => ∃ n : Numeral, taken = n.text ∧ n.WellFormed ∧ n.EndsBefore rest
  | mark k => taken = k.text ∧ ∀ c ∈ rest.head?, ¬ k.GrowsBy c

/-- How many newlines of what was read are counted.  A newline that is an element by itself is
counted in a step of its own. -/
def Stage.newlines (taken : List Char) : Stage → Nat
  | lead _ => 0
  | _ => taken.count '\n'

/-- **A round of a loop** reads one more character. -/
theorem Loop.Fits.snoc {l : Loop} {taken rest : List Char} {c : Char}
    (h : l.Fits taken (c :: rest)) (hc : l.takes c = true) : l.Fits (taken ++ [c]) rest := by
  cases l with
  | comment =>
    obtain ⟨body, rfl, hbody⟩ := h
    refine ⟨body ++ [c], rfl, ?_⟩
    have hne : c ≠ '\n' := by simpa [takes] using hc
    simp [hbody, hne.symm]
  | string =>
    obtain ⟨body, rfl, hbody⟩ := h
    refine ⟨body ++ [c], rfl, ?_⟩
    have hne : c ≠ '"' := by simpa [takes] using hc
    simp [hbody, hne.symm]
  | whole =>
    obtain ⟨_, hdigits⟩ := h
    refine ⟨by simp, fun d hd => ?_⟩
    rw [List.append_nil, List.mem_append, List.mem_singleton] at hd
    rcases hd with hd | rfl
    · exact hdigits d (List.mem_append_left _ hd)
    · exact hc
  | fraction =>
    obtain ⟨whole, fraction, rfl, ⟨hne, hdigits⟩, _⟩ := h
    refine ⟨whole, fraction ++ [c], by simp, ⟨hne, fun d hd => ?_⟩, by simp⟩
    rw [← List.append_assoc, List.mem_append, List.mem_singleton] at hd
    rcases hd with hd | rfl
    · exact hdigits d hd
    · exact hc
  | word =>
    obtain ⟨d, letters, rfl, hd, hletters⟩ := h
    refine ⟨d, letters ++ [c], rfl, hd, fun e he => ?_⟩
    rw [List.mem_append, List.mem_singleton] at he
    rcases he with he | rfl
    · exact hletters e he
    · exact hc

theorem Loop.eq_string_of_takes_newline {l : Loop} (h : l.takes '\n' = true) : l = string := by
  have hword : isWordCharacter '\n' = false := by
    rw [isWordCharacter, Unicode.isAlphabetic_of_ascii (by decide)]
    decide
  cases l with
  | string => rfl
  | word => exact absurd h (by simp [takes, hword])
  | _ => exact absurd h (by decide)

theorem count_newline_of_lead {c : Char} (h : Lead.of c ≠ .newline) : [c].count '\n' = 0 := by
  refine List.count_eq_zero_of_not_mem fun hmem => h ?_
  rw [← List.mem_singleton.mp hmem]
  rfl

/-- A character that is no newline leaves the line as it is. -/
theorem line_snoc {line start : UInt32} {taken : List Char} {c : Char} (hc : c ≠ '\n')
    (h : line = start + UInt32.ofNat (taken.count '\n')) :
    line = start + UInt32.ofNat ((taken ++ [c]).count '\n') := by
  have hnone : [c].count '\n' = 0 := List.count_eq_zero_of_not_mem (by simpa using hc.symm)
  rw [List.count_append, hnone, Nat.add_zero, h]

theorem numeral?_text {n : Numeral} (h : n.WellFormed) :
    numeral? (String.ofList n.text) = some n := by
  have hread := Numeral.read_append h (Element.endsBefore_nil (e := .number n) h)
  rw [List.append_nil] at hread
  rw [numeral?, String.toList_ofList, hread]
  exact if_pos ⟨h.1, rfl⟩

theorem lineAfter_append (line : UInt32) (es fs : List Element) :
    lineAfter line (es ++ fs) = lineAfter (lineAfter line es) fs := by
  induction es generalizing line with
  | nil => rfl
  | cons e es ih => exact ih _

/-! ### The states of a cursor -/

namespace Cursor

/-- The cursor has noted what these elements say, and nothing else, and its log says so. -/
structure Noted (m : Cursor) (es : List Element) : Prop where
  tokens_eq : m.tokens = (eventsFrom 1 es).filterMap Event.token?
  diagnostics_eq : m.diagnostics = (eventsFrom 1 es).filterMap Event.diagnostic?
  log_eq : m.log = startRecord m.source :: (eventsFrom 1 es).map Event.record

/-- The cursor stands in the element behind these, of which it has read `taken`. -/
structure Within (m : Cursor) (es : List Element) (taken rest : List Char) : Prop
    extends Standing m (es.flatMap Element.text) taken rest, Noted m es where
  cut_eq : cut m.source.toList = es ++ cut (taken ++ rest)
  startLine_eq : m.startLine = lineAfter 1 es
  line_eq : m.line = m.startLine + UInt32.ofNat (m.stage.newlines taken)
  fits : m.stage.Fits taken rest

/-- The cursor is done with these elements and with the last one, if there is one.  `start` is still
in front of that one. -/
structure Settled (m : Cursor) (es : List Element) (last : Option Element) (rest : List Char) : Prop
    extends Standing m (es.flatMap Element.text) (last.toList.flatMap Element.text) rest,
      Noted m (es ++ last.toList) where
  stage_eq : m.stage = .between
  first : last = none → es = []
  cut_eq : cut m.source.toList = es ++ last.toList ++ cut rest
  line_eq : m.line = lineAfter 1 (es ++ last.toList)

/-- The cursor has found what a scan of the source finds. -/
structure Finished (m : Cursor) (es : List Element) (last : Option Element) : Prop
    extends Standing m (es.flatMap Element.text) (last.toList.flatMap Element.text) [] where
  stage_eq : m.stage = .done
  first : last = none → es = []
  cut_eq : cut m.source.toList = es ++ last.toList
  tokens_eq : m.tokens = (scan m.source).tokens
  diagnostics_eq : m.diagnostics = (scan m.source).diagnostics
  log_eq : m.log = scanLog m.source

end Cursor

/-! ### Outcomes of a step -/

/-- How many steps may follow a stage until a character is read or the scan is over, at most. -/
def Stage.rank : Stage → Nat
  | done => 0
  | element => 1
  | between => 2
  | closing | numeral | mark _ => 3
  | body _ _ | behind _ => 4
  | test _ => 5
  | lead _ => 6

/-- A scan goes on from the one stage to the other one without reading a character. -/
def Stage.Precedes (s t : Stage) : Prop := s.isRound = false ∧ t.rank < s.rank

namespace Cursor

/-- What a step from `m` inside of an element can lead to. -/
inductive Outcome (m : Cursor) (taken rest : List Char) : Cursor → Prop
  | reads {c : Char} {after : List Char} {line : UInt32} (stage : Stage) :
      rest = c :: after → stage.Fits (taken ++ [c]) after →
      line = m.startLine + UInt32.ofNat (stage.newlines (taken ++ [c])) →
      Outcome m taken rest { m with pos := m.pos + c.utf8Size, line := line, stage := stage }
  | goesOn (stage : Stage) :
      m.stage.Precedes stage → stage.Fits taken rest →
      m.line = m.startLine + UInt32.ofNat (stage.newlines taken) →
      Outcome m taken rest (m.enter stage)
  | settles {e : Element} {line : UInt32} {tokens : List Token} {diagnostics : List Diagnostic}
      {log : List LogRecord} :
      m.stage.Precedes .between → e.text = taken → e.Readable → e.EndsBefore rest →
      line = m.startLine + UInt32.ofNat e.newlines →
      tokens = m.tokens ++ (e.event? m.startLine).toList.filterMap Event.token? →
      diagnostics = m.diagnostics ++ (e.event? m.startLine).toList.filterMap Event.diagnostic? →
      log = m.log ++ (e.event? m.startLine).toList.map Event.record →
      Outcome m taken rest { m with
        line := line, tokens := tokens, diagnostics := diagnostics, log := log, stage := .between }

theorem precedes_at {m : Cursor} {s : Stage} (hs : m.stage = s) (hround : s.isRound = false) :
    ∀ t : Stage, t.rank < s.rank → m.stage.Precedes t := by
  intro t ht
  rw [hs]
  exact ⟨hround, ht⟩

namespace Outcome

variable {m : Cursor} {taken rest : List Char} {e : Element}

/-- An element that is no token and has no fault needs no note. -/
theorem silent (hs : m.stage.Precedes .between) (htext : e.text = taken) (hread : e.Readable)
    (hend : e.EndsBefore rest) (he : e.Silent) {line : UInt32}
    (hline : line = m.startLine + UInt32.ofNat e.newlines) :
    m.Outcome taken rest { m with line := line, stage := .between } :=
  .settles hs htext hread hend hline (by simp [he.event?]) (by simp [he.event?])
    (by simp [he.event?])

/-- An element with a fault is done with when the fault is reported. -/
theorem fault (hs : m.stage.Precedes .between) (htext : e.text = taken) (hread : e.Readable)
    (hend : e.EndsBefore rest) {f : Fault} (he : e.Breaks f)
    (hline : m.line = m.startLine + UInt32.ofNat e.newlines) :
    m.Outcome taken rest ((m.report f).enter .between) := by
  refine .settles hs htext hread hend hline ?_ ?_ ?_
  · rw [he.event?]
    exact (List.append_nil _).symm
  · rw [he.event?, ← hline]
    rfl
  · rw [he.event?, ← hline]
    rfl

end Outcome

/-! ### Steps inside of an element -/

namespace Within

variable {m : Cursor} {es : List Element} {taken rest : List Char}

theorem fits_at (h : m.Within es taken rest) {s : Stage} (hs : m.stage = s) :
    s.Fits taken rest := by
  rw [← hs]
  exact h.fits

theorem line_at (h : m.Within es taken rest) {s : Stage} (hs : m.stage = s) :
    m.line = m.startLine + UInt32.ofNat (s.newlines taken) := by
  rw [← hs]
  exact h.line_eq

/-- The first character of an element is always read. -/
theorem step?_element {c : Char} {after : List Char} (h : m.Within es taken (c :: after))
    (hs : m.stage = .element) :
    m.step? = some { m with pos := m.pos + c.utf8Size, stage := .lead c } := by
  simp only [step?, hs, h.advance?]
  rfl

theorem step_element (h : m.Within es taken rest) (hs : m.stage = .element) :
    ∃ m', m.step? = some m' ∧ m.Outcome taken rest m' := by
  obtain ⟨rfl, hne⟩ := h.fits_at hs
  obtain ⟨c, after, rfl⟩ := List.exists_cons_of_ne_nil hne
  exact ⟨_, h.step?_element hs, .reads (.lead c) rfl rfl (h.line_at hs)⟩

/-- A token is done with when it is pushed. -/
theorem pushes (h : m.Within es taken rest) {e : Element} (hs : m.stage.Precedes .between)
    (htext : e.text = taken) (hwf : e.WellFormed) (hend : e.EndsBefore rest) {kind : Kind}
    {literal : Option Literal} (he : e.meaning? = some (kind, literal))
    (hline : m.line = m.startLine + UInt32.ofNat e.newlines) :
    ∃ m', (do let pushed ← m.push? kind literal; pure (pushed.enter .between)) = some m' ∧
      m.Outcome taken rest m' := by
  have hevent : e.event? m.startLine =
      some (.token ⟨kind, String.ofList taken, literal, m.startLine⟩) := by
    rw [Element.event?, he, htext]
  refine ⟨_, by rw [h.push?]; rfl, .settles hs htext (.wellFormed hwf) hend hline ?_ ?_ ?_⟩
  · rw [hevent]
    rfl
  · rw [hevent]
    exact (List.append_nil _).symm
  · rw [hevent]
    rfl

/-! ### Behind the first character -/

/-- Behind any other character than a newline the lines of what was read are counted. -/
theorem line_behind_lead {c : Char} (h : m.Within es taken rest) (hs : m.stage = .lead c)
    (hc : Lead.of c ≠ .newline) :
    m.line = m.startLine + UInt32.ofNat ([c].count '\n') := by
  rw [count_newline_of_lead hc]
  exact h.line_at hs

/-- A mark is complete when nothing behind it prolongs it. -/
theorem mark_complete {c : Char} {k : Mark} (h : m.Within es [c] rest) (hs : m.stage = .lead c)
    (hlead : Lead.of c = .mark k) (hrest : ∀ d ∈ rest.head?, ¬ k.GrowsBy d) :
    m.Outcome [c] rest (m.enter (.mark k)) :=
  .goesOn (.mark k) (precedes_at hs rfl _ (by simp [Stage.rank]))
    ⟨(Lead.of_eq_mark_iff.mp hlead).symm, hrest⟩ (h.line_behind_lead hs (by simp [hlead]))

/-- Another slash behind a slash begins a comment. -/
theorem step_slash (h : m.Within es ['/'] rest) (hs : m.stage = .lead '/') :
    ∃ m', m.step? = some m' ∧ m.Outcome ['/'] rest m' := by
  have hlead : Lead.of '/' = .mark .slash := Lead.of_ofChar? rfl
  by_cases hnext : rest.head? = some '/'
  · obtain ⟨after, rfl⟩ := List.head?_eq_some_iff.mp hnext
    refine ⟨_, ?_, .reads (.test .comment) rfl ⟨[], rfl, List.not_mem_nil⟩
      (h.line_behind_lead hs (by simp [hlead]))⟩
    simp [step?, hs, lead?, hlead, h.accept?]
    rfl
  · refine ⟨_, ?_, h.mark_complete hs hlead ?_⟩
    · simp [step?, hs, lead?, hlead, h.accept?, hnext]
    · rintro d hd (⟨_, hequals⟩ | ⟨rfl, _⟩)
      · exact absurd hequals (by decide)
      · exact hnext hd

/-- An equals sign behind a mark belongs to it, if there is such a mark. -/
theorem step_lead_mark {c : Char} {k : Mark} (h : m.Within es [c] rest) (hs : m.stage = .lead c)
    (hlead : Lead.of c = .mark k) (hslash : k ≠ .slash) :
    ∃ m', m.step? = some m' ∧ m.Outcome [c] rest m' := by
  cases hlonger : k.withEquals? with
  | none =>
    refine ⟨_, ?_, h.mark_complete hs hlead ?_⟩
    · simp [step?, hs, lead?, hlead, hslash, hlonger]
    · rintro d hd (⟨_, hequals⟩ | ⟨_, hk⟩)
      · exact absurd hequals (by simp [hlonger])
      · exact hslash hk
  | some longer =>
    by_cases hnext : rest.head? = some '='
    · obtain ⟨after, rfl⟩ := List.head?_eq_some_iff.mp hnext
      have htext : longer.text = [c] ++ ['='] := by
        rw [Mark.text_of_withEquals? hlonger, Lead.of_eq_mark_iff.mp hlead]
      have hline := h.line_behind_lead hs (by simp [hlead])
      refine ⟨_, ?_, .reads (.mark longer) rfl
        ⟨htext.symm, fun d _ => Mark.not_growsBy_of_withEquals? hlonger d⟩
        (line_snoc (by decide) hline)⟩
      simp [step?, hs, lead?, hlead, hslash, hlonger, h.accept?]
      rfl
    · refine ⟨_, ?_, h.mark_complete hs hlead ?_⟩
      · simp [step?, hs, lead?, hlead, hslash, hlonger, h.accept?, hnext]
      · rintro d hd (⟨rfl, _⟩ | ⟨_, hk⟩)
        · exact hnext hd
        · exact hslash hk

/-- The first character says which element it begins. -/
theorem step_lead {c : Char} (h : m.Within es taken rest) (hs : m.stage = .lead c) :
    ∃ m', m.step? = some m' ∧ m.Outcome taken rest m' := by
  obtain rfl : taken = [c] := h.fits_at hs
  have hbetween := precedes_at hs rfl .between (by simp [Stage.rank])
  have htest (l : Loop) := precedes_at hs rfl (.test l) (by simp [Stage.rank])
  have hcounted := h.line_behind_lead hs
  have hstep : m.step? = m.lead? c := by rw [step?, hs]
  cases hlead : Lead.of c with
  | newline =>
    obtain rfl := Lead.eq_of_of_eq_newline hlead
    have hline : m.line = m.startLine + UInt32.ofNat 0 := h.line_at hs
    have hnext : m.line + 1 = m.startLine + UInt32.ofNat Element.newline.newlines := by
      rw [hline]
      exact congrArg (· + 1) (UInt32.add_zero m.startLine)
    refine ⟨_, ?_, .silent (e := .newline) hbetween rfl (.wellFormed trivial) trivial .newline
      hnext⟩
    rw [hstep, lead?, hlead]
    rfl
  | blank =>
    have hblank := Lead.isBlank_of_of_eq_blank hlead
    refine ⟨_, ?_, .silent (e := .blank c) hbetween rfl (.wellFormed hblank) trivial (.blank c)
      (hcounted (by simp [hlead]))⟩
    rw [hstep, lead?, hlead]
    rfl
  | quote =>
    obtain rfl := Lead.eq_of_of_eq_quote hlead
    refine ⟨_, ?_, .goesOn (.test .string) (htest _) ⟨[], rfl, List.not_mem_nil⟩
      (hcounted (by simp [hlead]))⟩
    rw [hstep, lead?, hlead]
  | digit =>
    have hdigit := Lead.isDigit_of_of_eq_digit hlead
    refine ⟨_, ?_, .goesOn (.test .whole) (htest _) ⟨by simp, by simp [hdigit]⟩
      (hcounted (by simp [hlead]))⟩
    rw [hstep, lead?, hlead]
  | letter =>
    have hletter := Lead.isAlphabetic_of_of_eq_letter hlead
    refine ⟨_, ?_, .goesOn (.test .word) (htest _) ⟨c, [], rfl, hletter, by simp⟩
      (hcounted (by simp [hlead]))⟩
    rw [hstep, lead?, hlead]
  | mark k =>
    by_cases hslash : k = .slash
    · obtain rfl : c = '/' := by
        simpa [hslash, Mark.text] using (Lead.of_eq_mark_iff.mp hlead).symm
      exact h.step_slash hs
    · exact h.step_lead_mark hs hlead hslash
  | stray =>
    refine ⟨_, ?_, .fault (e := .stray c) hbetween rfl (.stray hlead) trivial (.stray c)
      (hcounted (by simp [hlead]))⟩
    rw [hstep, lead?, hlead]

/-! ### Loops -/

theorem step_test {l : Loop} (h : m.Within es taken rest) (hs : m.stage = .test l) :
    ∃ m', m.step? = some m' ∧ m.Outcome taken rest m' := by
  have hfits : l.Fits taken rest := h.fits_at hs
  have hline : m.line = m.startLine + UInt32.ofNat (taken.count '\n') := h.line_at hs
  have hover (hrest : ∀ c ∈ rest.head?, l.takes c = false) :
      m.Outcome taken rest (m.enter (.behind l)) :=
    .goesOn (.behind l) (precedes_at hs rfl _ (by simp [Stage.rank])) ⟨hfits, hrest⟩ hline
  cases rest with
  | nil =>
    refine ⟨_, ?_, hover (by simp)⟩
    simp [step?, hs, h.peek?]
  | cons c after =>
    cases htakes : l.takes c with
    | true =>
      refine ⟨_, ?_, .goesOn (.body l c) (precedes_at hs rfl _ (by simp [Stage.rank]))
        ⟨hfits, htakes, rfl⟩ hline⟩
      simp [step?, hs, h.peek?, htakes]
    | false =>
      refine ⟨_, ?_, hover (stops_at htakes after)⟩
      simp [step?, hs, h.peek?, htakes]

/-- A round of a loop reads one character, and in a string it counts the newlines. -/
theorem step_body {l : Loop} {c : Char} (h : m.Within es taken rest) (hs : m.stage = .body l c) :
    ∃ m', m.step? = some m' ∧ m.Outcome taken rest m' := by
  obtain ⟨hfits, htakes, hnext⟩ := h.fits_at hs
  obtain ⟨after, rfl⟩ := List.head?_eq_some_iff.mp hnext
  have hline : m.line = m.startLine + UInt32.ofNat (taken.count '\n') := h.line_at hs
  have hread := hfits.snoc htakes
  by_cases hnewline : c = '\n'
  · subst hnewline
    obtain rfl := Loop.eq_string_of_takes_newline htakes
    have hcount : m.line + 1 =
        m.startLine + UInt32.ofNat ((taken ++ ['\n']).count '\n') := by
      rw [hline, List.count_append, UInt32.ofNat_add, ← UInt32.add_assoc]
      rfl
    have hnextLine : m.nextLine.Standing (es.flatMap Element.text) taken ('\n' :: after) :=
      ⟨h.source_eq, h.start_eq, h.pos_eq⟩
    refine ⟨_, ?_, .reads (.test .string) rfl hread hcount⟩
    simp [step?, hs, hnextLine.advance?]
    rfl
  · refine ⟨_, ?_, .reads (.test l) rfl hread (line_snoc hnewline hline)⟩
    simp [step?, hs, hnewline, h.advance?]
    rfl

/-- Behind the first digits of a numeral, a point belongs to it if a digit follows. -/
theorem step_behind_whole (h : m.Within es taken rest) (hs : m.stage = .behind .whole) :
    ∃ m', m.step? = some m' ∧ m.Outcome taken rest m' := by
  obtain ⟨hfits, hrest⟩ := h.fits_at hs
  have hline : m.line = m.startLine + UInt32.ofNat (taken.count '\n') := h.line_at hs
  by_cases hpoint : rest.head? = some '.' ∧ rest[1]?.any Char.isDigit = true
  · obtain ⟨d, after, rfl, hd⟩ : BeginsFraction rest := by
      match rest, hpoint with
      | [_], ⟨_, hd⟩ => exact absurd hd (by simp)
      | c :: d :: after, ⟨hc, hd⟩ => exact ⟨d, after, by simpa using hc, by simpa using hd⟩
    refine ⟨_, ?_, .reads (.test .fraction) rfl
      ⟨taken, [], rfl, hfits, fun _ => ⟨d, rfl, hd⟩⟩ (line_snoc (by decide) hline)⟩
    simp [step?, hs, behind?, h.peek?, h.peekSecond?, h.advance?, hd]
    rfl
  · have hnone : ¬ BeginsFraction rest := by
      rintro ⟨d, after, rfl, hd⟩
      exact hpoint ⟨rfl, by simpa using hd⟩
    have hends : Numeral.EndsBefore ⟨taken, []⟩ rest :=
      Numeral.endsBefore_iff.mpr ⟨hrest, fun _ => hnone⟩
    refine ⟨_, ?_, .goesOn .numeral (precedes_at hs rfl _ (by simp [Stage.rank]))
      ⟨⟨taken, []⟩, rfl, hfits, hends⟩ hline⟩
    simp [step?, hs, behind?, h.peek?, h.peekSecond?, hpoint]

/-- Where a loop is over, the element is at its end, but for the quote of a string and for what may
follow the first digits of a numeral. -/
theorem step_behind {l : Loop} (h : m.Within es taken rest) (hs : m.stage = .behind l) :
    ∃ m', m.step? = some m' ∧ m.Outcome taken rest m' := by
  obtain ⟨hfits, hrest⟩ := h.fits_at hs
  have hline : m.line = m.startLine + UInt32.ofNat (taken.count '\n') := h.line_at hs
  have hbetween := precedes_at hs rfl .between (by simp [Stage.rank])
  have hstep : m.step? = m.behind? l := by rw [step?, hs]
  rw [hstep]
  cases l with
  | comment =>
    obtain ⟨body, rfl, hbody⟩ := hfits
    refine ⟨_, rfl, .silent (e := .comment body) hbetween rfl (.wellFormed hbody)
      (fun c hc => ?_) (.comment body) hline⟩
    simpa [Loop.takes] using hrest c hc
  | string =>
    obtain ⟨body, rfl, hbody⟩ := hfits
    cases rest with
    | nil =>
      have hend : m.atEnd = true := h.atEnd_iff.mpr rfl
      refine ⟨_, ?_, .fault (e := .openString body) hbetween rfl (.openString hbody) rfl
        (.openString body) hline⟩
      rw [behind?, if_pos hend]
    | cons c after =>
      have hmore : ¬ m.atEnd = true := fun hend => by simpa using h.atEnd_iff.mp hend
      obtain rfl : c = '"' := by simpa [Loop.takes] using hrest c rfl
      refine ⟨_, ?_, .reads .closing rfl ⟨body, rfl, hbody⟩ (line_snoc (by decide) hline)⟩
      rw [behind?, if_neg hmore, h.advance?]
      rfl
  | whole =>
    rw [← hstep]
    exact h.step_behind_whole hs
  | fraction =>
    obtain ⟨whole, fraction, rfl, hwf, hdigit⟩ := hfits
    have hne : fraction ≠ [] := by
      intro hnil
      obtain ⟨d, hd, hdigit⟩ := hdigit hnil
      have hstop : d.isDigit = false := hrest d hd
      rw [hdigit] at hstop
      exact absurd hstop (by decide)
    refine ⟨_, rfl, .goesOn .numeral (precedes_at hs rfl _ (by simp [Stage.rank]))
      ⟨⟨whole, fraction⟩, ?_, hwf, hrest, fun hnil => absurd hnil hne⟩ hline⟩
    simp [Numeral.text, hne]
  | word =>
    obtain ⟨m', hpush, hm'⟩ := h.pushes hbetween (e := .word taken) rfl hfits hrest rfl hline
    refine ⟨m', ?_, hm'⟩
    rw [behind?, h.lexeme?]
    exact hpush

/-! ### The end of an element -/

/-- A string is the text between its quotes. -/
theorem step_closing (h : m.Within es taken rest) (hs : m.stage = .closing) :
    ∃ m', m.step? = some m' ∧ m.Outcome taken rest m' := by
  obtain ⟨body, rfl, hbody⟩ := h.fits_at hs
  have hbetween := precedes_at hs rfl .between (by simp [Stage.rank])
  have hvalue := h.body? (by decide) (by decide)
  obtain ⟨m', hpush, hm'⟩ := h.pushes hbetween (e := .string body) rfl hbody trivial rfl
    (h.line_at hs)
  refine ⟨m', ?_, hm'⟩
  simp only [step?, hs, hvalue]
  exact hpush

theorem step_numeral (h : m.Within es taken rest) (hs : m.stage = .numeral) :
    ∃ m', m.step? = some m' ∧ m.Outcome taken rest m' := by
  obtain ⟨n, rfl, hwf, hend⟩ := h.fits_at hs
  have hbetween := precedes_at hs rfl .between (by simp [Stage.rank])
  obtain ⟨m', hpush, hm'⟩ := h.pushes hbetween (e := .number n) rfl hwf hend rfl
    (h.line_at hs)
  refine ⟨m', ?_, hm'⟩
  simp only [step?, hs, h.lexeme?, Option.bind_eq_bind, Option.bind_some, numeral?_text hwf]
  exact hpush

theorem step_mark {k : Mark} (h : m.Within es taken rest) (hs : m.stage = .mark k) :
    ∃ m', m.step? = some m' ∧ m.Outcome taken rest m' := by
  obtain ⟨rfl, hend⟩ := h.fits_at hs
  have hbetween := precedes_at hs rfl .between (by simp [Stage.rank])
  obtain ⟨m', hpush, hm'⟩ := h.pushes hbetween (e := .mark k) rfl trivial hend rfl
    (h.line_at hs)
  refine ⟨m', ?_, hm'⟩
  simp only [step?, hs]
  exact hpush

/-- **A step inside of an element** does not fail, and has one of the outcomes. -/
theorem step (h : m.Within es taken rest) :
    ∃ m', m.step? = some m' ∧ m.Outcome taken rest m' := by
  cases hs : m.stage with
  | between => exact (h.fits_at hs).elim
  | element => exact h.step_element hs
  | lead c => exact h.step_lead hs
  | test l => exact h.step_test hs
  | body l c => exact h.step_body hs
  | behind l => exact h.step_behind hs
  | closing => exact h.step_closing hs
  | numeral => exact h.step_numeral hs
  | mark k => exact h.step_mark hs
  | done => exact (h.fits_at hs).elim

end Within

end Cursor

end LoxScan
