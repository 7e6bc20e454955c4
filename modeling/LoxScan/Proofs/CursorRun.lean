/-
A scan by byte offsets from its start to its end.

* `Within.stepsTo`, `Settled.stepsTo` — what a step leads to, in an element and between two;
* `Cursor.Sound` — what holds of a cursor at every step (`Sound.step`, `Sound.run`);
* `exists_run` — a run comes to what its steps can lead to, because each step leaves less work;
* `Cursor.InPlace` — the offsets are on character boundaries, and `start` is where the element
  begins in which, or behind which, the cursor stands;
* `Cursor.ReadsOn` — from here the scan of an element ends, and it reads one character at least;
* `Cursor.ReadsNumerals` — no numeral fails to be read (`readsNumerals_of_run?`);
* `scan_by_offsets` — the scan of every source stays in place and reads on to the end, where it has
  found what `scan` finds.

Design notes: a cursor stands inside of an element of the cut only in view of what it will read, so
that is shown from the step with which it is done with the element.
-/
import LoxScan.Proofs.CursorStep

namespace LoxScan

namespace Cursor

/-! ### Where the steps lead -/

/-- A bound on the steps to the end of the scan. -/
def work (m : Cursor) : Nat := 6 * (m.source.utf8ByteSize - m.pos) + m.stage.rank

/-- A step that goes on in the same source and leaves less work. -/
structure StepsTo (m m' : Cursor) : Prop where
  step_eq : m.step? = some m'
  source_eq : m'.source = m.source
  pos_le : m.pos ≤ m'.pos
  work_lt : m'.work < m.work

namespace Outcome

variable {m m' : Cursor} {es : List Element} {taken rest : List Char}

theorem source_eq (ho : m.Outcome taken rest m') : m'.source = m.source := by
  cases ho <;> rfl

theorem pos_le (ho : m.Outcome taken rest m') : m.pos ≤ m'.pos := by
  cases ho with
  | reads => exact Nat.le_add_right _ _
  | goesOn => exact Nat.le_refl _
  | settles => exact Nat.le_refl _

/-- What was read was in front of the position, or the stage is a later one. -/
theorem work_lt (h : m.Within es taken rest) (ho : m.Outcome taken rest m') :
    m'.work < m.work := by
  have htotal := h.pos_add_byteLength
  cases ho with
  | @reads c after line stage hrest =>
    have hsize := c.utf8Size_pos
    have hstage : stage.rank ≤ 6 := by cases stage <;> simp [Stage.rank]
    have hnow : 1 ≤ m.stage.rank := by
      cases hs : m.stage with
      | done => exact (h.fits_at hs).elim
      | _ => simp [Stage.rank]
    rw [hrest, byteLength_cons] at htotal
    simp only [work]
    omega
  | goesOn _ hprecedes => exact Nat.add_lt_add_left hprecedes.2 _
  | settles hprecedes => exact Nat.add_lt_add_left hprecedes.2 _

end Outcome

namespace Within

variable {m : Cursor} {es : List Element} {taken rest : List Char}

theorem read_one {c : Char} {after : List Char} (h : m.Within es taken (c :: after)) {line : UInt32}
    {stage : Stage} (hfits : stage.Fits (taken ++ [c]) after)
    (hline : line = m.startLine + UInt32.ofNat (stage.newlines (taken ++ [c]))) :
    Within { m with pos := m.pos + c.utf8Size, line := line, stage := stage } es (taken ++ [c])
      after where
  source_eq := by
    rw [h.source_eq]
    simp
  start_eq := h.start_eq
  pos_eq := by
    rw [h.pos_eq]
    simp [Nat.add_assoc]
  toNoted := ⟨h.tokens_eq, h.diagnostics_eq, h.log_eq⟩
  cut_eq := by
    rw [h.cut_eq, List.append_assoc, List.singleton_append]
  startLine_eq := h.startLine_eq
  line_eq := hline
  fits := hfits

theorem go_on (h : m.Within es taken rest) {stage : Stage} (hfits : stage.Fits taken rest)
    (hline : m.line = m.startLine + UInt32.ofNat (stage.newlines taken)) :
    Within { m with stage := stage } es taken rest :=
  { h with line_eq := hline, fits := hfits }

/-- **An element is done with**: it is the first one of the cut of what it was read from, and its
event has been noted. -/
theorem settle (h : m.Within es taken rest) {e : Element} (htext : e.text = taken)
    (hread : e.Readable) (hend : e.EndsBefore rest) :
    Settled { m with
      line := m.startLine + UInt32.ofNat e.newlines
      tokens := m.tokens ++ (e.event? m.startLine).toList.filterMap Event.token?
      diagnostics := m.diagnostics ++ (e.event? m.startLine).toList.filterMap Event.diagnostic?
      log := m.log ++ (e.event? m.startLine).toList.map Event.record
      stage := .between } es (some e) rest where
  source_eq := by
    rw [h.source_eq, ← htext]
    simp
  start_eq := h.start_eq
  pos_eq := by
    rw [h.pos_eq, ← htext]
    simp
  tokens_eq := by
    rw [Option.toList_some, eventsFrom_append, List.filterMap_append, ← h.tokens_eq,
      h.startLine_eq]
    simp [eventsFrom]
  diagnostics_eq := by
    rw [Option.toList_some, eventsFrom_append, List.filterMap_append, ← h.diagnostics_eq,
      h.startLine_eq]
    simp [eventsFrom]
  log_eq := by
    rw [Option.toList_some, eventsFrom_append, List.map_append, ← List.cons_append, ← h.log_eq,
      h.startLine_eq]
    simp [eventsFrom]
  stage_eq := rfl
  first := fun hnone => absurd hnone (by simp)
  cut_eq := by
    rw [h.cut_eq, ← htext, cut_text_append_of_readable hread hend, Option.toList_some,
      List.append_assoc, List.singleton_append]
  line_eq := by
    rw [Option.toList_some, lineAfter_append, h.startLine_eq]
    rfl

end Within

/-- An outcome is that a part of the rest was read, and a character of it if the step is a round of
a loop, or that the cursor is done with the element. -/
theorem Outcome.spec {m m' : Cursor} {es : List Element} {taken rest : List Char}
    (ho : m.Outcome taken rest m') (h : m.Within es taken rest) :
    (∃ more after, rest = more ++ after ∧ (m.stage.isRound = true → more ≠ []) ∧
        m'.Within es (taken ++ more) after) ∨
      m.stage.isRound = false ∧ ∃ e, m'.Settled es (some e) rest := by
  cases ho with
  | reads _ hrest hfits hline =>
    subst hrest
    exact Or.inl ⟨_, _, rfl, fun _ => List.cons_ne_nil _ _, h.read_one hfits hline⟩
  | goesOn _ hprecedes hfits hline =>
    have hround : m.stage.isRound = true → ([] : List Char) ≠ [] := by
      rw [hprecedes.1]
      exact fun hround => absurd hround (by decide)
    refine Or.inl ⟨[], rest, rfl, hround, ?_⟩
    rw [List.append_nil]
    exact h.go_on hfits hline
  | @settles e _ _ _ _ hprecedes htext hread hend hline htokens hdiagnostics hlog =>
    subst hline htokens hdiagnostics hlog
    exact Or.inr ⟨hprecedes.1, e, h.settle htext hread hend⟩

/-- **What a step inside of an element leads to.** -/
theorem Within.stepsTo {m : Cursor} {es : List Element} {taken rest : List Char}
    (h : m.Within es taken rest) :
    ∃ m', m.StepsTo m' ∧
      ((∃ more after, rest = more ++ after ∧ (m.stage.isRound = true → more ≠ []) ∧
          m'.Within es (taken ++ more) after) ∨
        m.stage.isRound = false ∧ ∃ e, m'.Settled es (some e) rest) := by
  obtain ⟨m', hstep, ho⟩ := h.step
  exact ⟨m', ⟨hstep, ho.source_eq, ho.pos_le, ho.work_lt h⟩, ho.spec h⟩

/-! ### Steps between two elements -/

namespace Settled

variable {m : Cursor} {es : List Element} {last : Option Element} {rest : List Char}

theorem begin_element (h : m.Settled es last rest) (hrest : rest ≠ []) :
    Within { m with start := m.pos, startLine := m.line, stage := .element }
      (es ++ last.toList) [] rest where
  source_eq := by
    rw [h.source_eq, List.flatMap_append, List.append_nil]
  start_eq := by
    rw [h.pos_eq, List.flatMap_append]
  pos_eq := by
    rw [h.pos_eq, List.flatMap_append, List.append_nil]
  toNoted := ⟨h.tokens_eq, h.diagnostics_eq, h.log_eq⟩
  cut_eq := h.cut_eq
  startLine_eq := h.line_eq
  line_eq := (UInt32.add_zero _).symm
  fits := ⟨rfl, hrest⟩

/-- At the end of the source nothing is left to be found, so the log is complete. -/
theorem finish (h : m.Settled es last []) : m.finish.Finished es last := by
  have hcut : cut m.source.toList = es ++ last.toList := by
    rw [h.cut_eq, cut_nil, List.append_nil]
  have htokens : m.tokens ++ [Token.endOfInput m.line] = (scan m.source).tokens := by
    rw [Scan.tokens, scan_events, scan_lastLine, hcut, ← h.tokens_eq, ← h.line_eq]
  have hdiagnostics : m.diagnostics = (scan m.source).diagnostics := by
    rw [Scan.diagnostics, scan_events, hcut, ← h.diagnostics_eq]
  have hlog : m.log ++ [endRecord (m.tokens ++ [Token.endOfInput m.line]) m.diagnostics] =
      scanLog m.source := by
    rw [htokens, hdiagnostics, h.log_eq, scanLog, scan_events, hcut]
  exact {
    source_eq := h.source_eq
    start_eq := h.start_eq
    pos_eq := h.pos_eq
    stage_eq := rfl
    first := h.first
    cut_eq := hcut
    tokens_eq := htokens
    diagnostics_eq := hdiagnostics
    log_eq := hlog }

/-- **A step between two elements** ends the scan at the end of the source, and begins the next
element anywhere else. -/
theorem stepsTo (h : m.Settled es last rest) :
    ∃ m', m.StepsTo m' ∧
      (m'.Within (es ++ last.toList) [] rest ∨ rest = [] ∧ m'.Finished es last) := by
  have hstep : m.step? = some m.between := by rw [step?, h.stage_eq]
  have hwork : ∀ s : Stage, s.rank < 2 → (m.enter s).work < m.work := by
    intro s hrank
    refine Nat.add_lt_add_left ?_ _
    rw [h.stage_eq]
    exact hrank
  by_cases hrest : rest = []
  · subst hrest
    rw [between, if_pos (h.atEnd_iff.mpr rfl)] at hstep
    exact ⟨_, ⟨hstep, rfl, Nat.le_refl _, hwork .done (by decide)⟩, Or.inr ⟨rfl, h.finish⟩⟩
  · have hmore : ¬ m.atEnd = true := fun hend => hrest (h.atEnd_iff.mp hend)
    rw [between, if_neg hmore] at hstep
    exact ⟨_, ⟨hstep, rfl, Nat.le_refl _, hwork .element (by decide)⟩,
      Or.inl (h.begin_element hrest)⟩

end Settled

/-! ### What holds at every step -/

/-- What holds of a cursor in front of `rest` at every step of a scan. -/
inductive Sound (m : Cursor) (rest : List Char) : Prop
  | between {es : List Element} {last : Option Element} : m.Settled es last rest → Sound m rest
  | within {es : List Element} {taken : List Char} : m.Within es taken rest → Sound m rest
  | done {es : List Element} {last : Option Element} : rest = [] → m.Finished es last →
      Sound m rest

/-- How a scan has gone on from one cursor to another one, over so many rounds of loops. -/
structure Onward (m m' : Cursor) (rest rest' : List Char) (rounds : Nat) : Prop where
  source_eq : m'.source = m.source
  pos_le : m.pos ≤ m'.pos
  rounds_le : rest'.length + rounds ≤ rest.length

theorem settled_atStart (source : String) :
    (atStart source).Settled [] none source.toList where
  source_eq := rfl
  start_eq := rfl
  pos_eq := rfl
  toNoted := ⟨rfl, rfl, rfl⟩
  stage_eq := rfl
  first := fun _ => rfl
  cut_eq := rfl
  line_eq := rfl

namespace Sound

variable {m : Cursor} {rest : List Char}

theorem standing (h : m.Sound rest) : ∃ before taken, m.Standing before taken rest := by
  rcases h with h | h | ⟨rfl, h⟩
  · exact ⟨_, _, h.toStanding⟩
  · exact ⟨_, _, h.toStanding⟩
  · exact ⟨_, _, h.toStanding⟩

/-- **A step** does not fail, and what holds at every step holds behind it. -/
theorem step (h : m.Sound rest) :
    ∃ m' rest', m.step? = some m' ∧ m'.Sound rest' ∧
      Onward m m' rest rest' (if m.stage.isRound then 1 else 0) := by
  rcases h with h | h | ⟨rfl, h⟩
  · have hround : m.stage.isRound = false := by rw [h.stage_eq]; rfl
    obtain ⟨m', hm, hm'⟩ := h.stepsTo
    refine ⟨m', rest, hm.step_eq, ?_, hm.source_eq, hm.pos_le, by simp [hround]⟩
    rcases hm' with hm' | ⟨hrest, hm'⟩
    · exact .within hm'
    · exact .done hrest hm'
  · obtain ⟨m', hm, ⟨more, after, rfl, hround, hwithin⟩ | ⟨hround, e, hsettled⟩⟩ := h.stepsTo
    · refine ⟨m', after, hm.step_eq, .within hwithin, hm.source_eq, hm.pos_le, ?_⟩
      split
      · next hs =>
        have hmore := List.length_pos_iff.mpr (hround hs)
        rw [List.length_append]
        omega
      · simp
    · exact ⟨m', rest, hm.step_eq, .between hsettled, hm.source_eq, hm.pos_le, by simp [hround]⟩
  · have hstep : m.step? = some m := by rw [step?, h.stage_eq]
    have hround : m.stage.isRound = false := by rw [h.stage_eq]; rfl
    exact ⟨m, [], hstep, .done rfl h, rfl, Nat.le_refl _, by simp [hround]⟩

end Sound

theorem run?_succ {m m' : Cursor} (h : m.step? = some m') (n : Nat) :
    m.run? (n + 1) = m'.run? n := by
  rw [run?, h, Option.bind_some]

theorem rounds_succ {m m' : Cursor} (h : m.step? = some m') (n : Nat) :
    m.rounds (n + 1) = (if m.stage.isRound then 1 else 0) + m'.rounds n := by
  have hfirst : (m.run? 0).any (·.stage.isRound) = m.stage.isRound := rfl
  have hlater : (fun k => (m.run? k).any (·.stage.isRound)) ∘ Nat.succ =
      fun k => (m'.run? k).any (·.stage.isRound) :=
    funext fun k => by rw [Function.comp_apply, Nat.succ_eq_add_one, run?_succ h]
  rw [rounds, List.range_succ_eq_map, List.countP_cons, List.countP_map, hlater, hfirst, rounds,
    Nat.add_comm]

/-- **A run** does not fail, and reads a character for each of its rounds at least. -/
theorem Sound.run {m : Cursor} {rest : List Char} (h : m.Sound rest) (n : Nat) :
    ∃ m' rest', m.run? n = some m' ∧ m'.Sound rest' ∧ Onward m m' rest rest' (m.rounds n) := by
  induction n generalizing m rest with
  | zero => exact ⟨m, rest, rfl, h, rfl, Nat.le_refl _, Nat.le_refl _⟩
  | succ n ih =>
    obtain ⟨next, rest₁, hstep, hnext, hfirst⟩ := h.step
    obtain ⟨m', rest', hrun, hm', hlater⟩ := ih hnext
    refine ⟨m', rest', (run?_succ hstep n).trans hrun, hm',
      hlater.source_eq.trans hfirst.source_eq, hfirst.pos_le.trans hlater.pos_le, ?_⟩
    have hfirstRounds := hfirst.rounds_le
    have hlaterRounds := hlater.rounds_le
    rw [rounds_succ hstep]
    omega

/-- So it holds of every cursor that a scan comes to. -/
theorem exists_sound_of_run? {source : String} {n : Nat} {m : Cursor}
    (h : (atStart source).run? n = some m) : ∃ rest, m.Sound rest := by
  obtain ⟨m', rest, hm', hsound, _⟩ := (Sound.between (settled_atStart source)).run n
  obtain rfl : m = m' := Option.some.inj (h.symm.trans hm')
  exact ⟨rest, hsound⟩

/-! ### Runs that come to an end -/

/-- **A run goes on** from one kind of cursors to another one, if every step from the first kind
stays in it or leads to the other one. -/
theorem exists_run {P Q : Cursor → Prop} (hstep : ∀ m, P m → ∃ m', m.StepsTo m' ∧ (P m' ∨ Q m'))
    {m : Cursor} (h : P m) :
    ∃ n ≤ m.work, ∃ m', m.run? n = some m' ∧ m'.source = m.source ∧ m.pos ≤ m'.pos ∧ Q m' := by
  induction hwork : m.work using Nat.strongRecOn generalizing m with
  | ind w ih =>
    obtain ⟨next, hnext, hP | hQ⟩ := hstep m h
    · have hless := hnext.work_lt
      obtain ⟨n, hn, m', hrun, hsource, hpos, hm'⟩ := ih next.work (by omega) hP rfl
      exact ⟨n + 1, by omega, m', (run?_succ hnext.step_eq n).trans hrun,
        hsource.trans hnext.source_eq, hnext.pos_le.trans hpos, hm'⟩
    · have hless := hnext.work_lt
      exact ⟨1, by omega, next, (run?_succ hnext.step_eq 0).trans rfl, hnext.source_eq,
        hnext.pos_le, hQ⟩

/-- **The scan of an element ends**, and no position in it is behind the end of the element. -/
theorem Within.exists_settled {m : Cursor} {es : List Element} {taken rest : List Char}
    (h : m.Within es taken rest) :
    ∃ n m' e after, m.run? n = some m' ∧ m'.source = m.source ∧ m.pos ≤ m'.pos ∧
      m'.Settled es (some e) after := by
  have hstep : ∀ k : Cursor, (∃ taken rest, k.Within es taken rest) → ∃ k', k.StepsTo k' ∧
      ((∃ taken rest, k'.Within es taken rest) ∨ ∃ e after, k'.Settled es (some e) after) := by
    rintro k ⟨taken, rest, hk⟩
    obtain ⟨k', hk', ⟨more, after, _, _, hwithin⟩ | ⟨_, e, hsettled⟩⟩ := hk.stepsTo
    · exact ⟨k', hk', Or.inl ⟨_, _, hwithin⟩⟩
    · exact ⟨k', hk', Or.inr ⟨_, _, hsettled⟩⟩
  obtain ⟨n, _, m', hrun, hsource, hpos, e, after, hm'⟩ := exists_run hstep ⟨taken, rest, h⟩
  exact ⟨n, m', e, after, hrun, hsource, hpos, hm'⟩

/-- The cursor stands in an element or between two of them. -/
def Underway (m : Cursor) : Prop :=
  (∃ es taken rest, m.Within es taken rest) ∨ ∃ es last rest, m.Settled es last rest

/-- **The scan of a source ends.** -/
theorem exists_finished (source : String) :
    ∃ n ≤ 6 * source.utf8ByteSize + 2, ∃ m es last, (atStart source).run? n = some m ∧
      m.source = source ∧ m.Finished es last := by
  have hstep : ∀ k : Cursor, k.Underway → ∃ k', k.StepsTo k' ∧
      (k'.Underway ∨ ∃ es last, k'.Finished es last) := by
    rintro k (⟨es, taken, rest, hk⟩ | ⟨es, last, rest, hk⟩)
    · obtain ⟨k', hk', ⟨more, after, _, _, hwithin⟩ | ⟨_, e, hsettled⟩⟩ := hk.stepsTo
      · exact ⟨k', hk', Or.inl (Or.inl ⟨_, _, _, hwithin⟩)⟩
      · exact ⟨k', hk', Or.inl (Or.inr ⟨_, _, _, hsettled⟩)⟩
    · obtain ⟨k', hk', hwithin | ⟨_, hfinished⟩⟩ := hk.stepsTo
      · exact ⟨k', hk', Or.inl (Or.inl ⟨_, _, _, hwithin⟩)⟩
      · exact ⟨k', hk', Or.inr ⟨_, _, hfinished⟩⟩
  have hstart : (atStart source).Underway := Or.inr ⟨_, _, _, settled_atStart source⟩
  obtain ⟨n, hn, m, hrun, hsource, _, es, last, hm⟩ := exists_run hstep hstart
  exact ⟨n, hn, m, es, last, hrun, hsource, hm⟩

/-! ### The whole scan -/

/-- The offsets of the cursor are in order and on character boundaries of the source, and the
element that begins at `start` goes on to the position at least. -/
structure InPlace (m : Cursor) : Prop where
  start_le_pos : m.start ≤ m.pos
  pos_le_size : m.pos ≤ m.source.utf8ByteSize
  isValid_start : String.Pos.Raw.IsValid m.source ⟨m.start⟩
  isValid_pos : String.Pos.Raw.IsValid m.source ⟨m.pos⟩
  element : m.source ≠ "" → ∃ es e fs, cut m.source.toList = es ++ e :: fs ∧
    m.start = byteLength (es.flatMap Element.text) ∧
    m.pos ≤ byteLength ((es ++ [e]).flatMap Element.text)

/-- From here the scan of an element comes to its end, and every later position is behind one more
character at least. -/
structure ReadsOn (m : Cursor) : Prop where
  ends : ∃ n m', m.run? n = some m' ∧ m'.stage = .between
  reads : ∃ before c after, m.source.toList = before ++ c :: after ∧ m.pos = byteLength before ∧
    ∀ n m', m.run? (n + 1) = some m' → m.pos + c.utf8Size ≤ m'.pos

/-- A cursor between two elements stands behind the element that begins at `start`. -/
theorem Standing.exists_element {m : Cursor} {es : List Element} {last : Option Element}
    {rest : List Char}
    (h : m.Standing (es.flatMap Element.text) (last.toList.flatMap Element.text) rest)
    (hcut : cut m.source.toList = es ++ last.toList ++ cut rest) (hfirst : last = none → es = [])
    (hne : m.source ≠ "") :
    ∃ fs e gs, cut m.source.toList = fs ++ e :: gs ∧
      m.start = byteLength (fs.flatMap Element.text) ∧
      m.pos ≤ byteLength ((fs ++ [e]).flatMap Element.text) := by
  cases last with
  | some e =>
    refine ⟨es, e, cut rest, by simpa using hcut, h.start_eq, ?_⟩
    rw [h.pos_eq, List.flatMap_append]
    exact Nat.le_refl _
  | none =>
    -- nothing was read yet
    obtain rfl := hfirst rfl
    obtain ⟨c, s, hsource⟩ := List.exists_cons_of_ne_nil (mt String.toList_eq_nil_iff.mp hne)
    have hcut : cut m.source.toList = (Element.read c s).1 :: cut (Element.read c s).2 := by
      rw [hsource, cut_cons]
    refine ⟨[], _, _, hcut, h.start_eq, ?_⟩
    · rw [h.pos_eq]
      exact Nat.zero_le _

theorem Sound.inPlace {m : Cursor} {rest : List Char} (h : m.Sound rest) : m.InPlace := by
  obtain ⟨before, taken, hstanding⟩ := h.standing
  have htotal := hstanding.pos_add_byteLength
  refine ⟨hstanding.start_le_pos, by omega, hstanding.isValid_start, hstanding.isValid_pos, ?_⟩
  intro hne
  rcases h with h | h | ⟨rfl, h⟩
  · exact h.toStanding.exists_element h.cut_eq h.first hne
  · obtain ⟨n, m', e, after, _, hsource, hpos, hm'⟩ := h.exists_settled
    refine ⟨_, e, cut after, ?_, h.start_eq, ?_⟩
    · rw [← hsource, hm'.cut_eq]
      simp
    · rw [List.flatMap_append]
      exact hpos.trans (Nat.le_of_eq hm'.pos_eq)
  · refine h.toStanding.exists_element ?_ h.first hne
    rw [h.cut_eq, cut_nil, List.append_nil]

theorem Within.readsOn {m : Cursor} {es : List Element} {taken rest : List Char}
    (h : m.Within es taken rest) (hs : m.stage = .element) : m.ReadsOn := by
  obtain ⟨n, m', e, after, hrun, _, _, hm'⟩ := h.exists_settled
  refine ⟨⟨n, m', hrun, hm'.stage_eq⟩, ?_⟩
  obtain ⟨rfl, hne⟩ := h.fits_at hs
  obtain ⟨c, later, rfl⟩ := List.exists_cons_of_ne_nil hne
  refine ⟨_, c, later, h.source_eq, h.pos_eq, fun k last hlast => ?_⟩
  have hstep := h.step?_element hs
  obtain ⟨_, rest', hnext, hsound, _⟩ := (Sound.within h).step
  obtain rfl := Option.some.inj (hstep.symm.trans hnext)
  obtain ⟨_, _, hlast', _, honward⟩ := hsound.run k
  rw [run?_succ hstep] at hlast
  obtain rfl := Option.some.inj (hlast.symm.trans hlast')
  exact honward.pos_le

theorem Sound.readsOn {m : Cursor} {rest : List Char} (h : m.Sound rest)
    (hs : m.stage = .element) : m.ReadsOn := by
  rcases h with h | h | ⟨_, h⟩
  · exact absurd (h.stage_eq.symm.trans hs) (by simp)
  · exact h.readsOn hs
  · exact absurd (h.stage_eq.symm.trans hs) (by simp)

/-! ### Numerals -/

/-- What the cursor takes for a numeral can be read as one, and it has never reported one that could
not. -/
structure ReadsNumerals (m : Cursor) : Prop where
  readable : m.stage = .numeral → ∃ text n, m.lexeme? = some text ∧ numeral? text = some n
  not_reported : ∀ d ∈ m.diagnostics, ∀ text, d.fault ≠ .unreadableNumber text

theorem Noted.fault_ne_unreadableNumber {m : Cursor} {es : List Element} (h : m.Noted es) :
    ∀ d ∈ m.diagnostics, ∀ text, d.fault ≠ .unreadableNumber text := by
  intro d hd text hfault
  have hmem : d.fault ∈ m.diagnostics.map Diagnostic.fault := List.mem_map_of_mem hd
  rw [h.diagnostics_eq, map_fault_eventsFrom, hfault] at hmem
  obtain ⟨e, _, he⟩ := List.mem_filterMap.mp hmem
  cases e <;> cases he

theorem Sound.readsNumerals {m : Cursor} {rest : List Char} (h : m.Sound rest) :
    m.ReadsNumerals := by
  rcases h with h | h | ⟨_, h⟩
  · exact ⟨fun hs => absurd (h.stage_eq.symm.trans hs) (by simp),
      h.toNoted.fault_ne_unreadableNumber⟩
  · refine ⟨fun hs => ?_, h.toNoted.fault_ne_unreadableNumber⟩
    obtain ⟨n, rfl, hwf, _⟩ := h.fits_at hs
    exact ⟨_, n, h.lexeme?, numeral?_text hwf⟩
  · refine ⟨fun hs => absurd (h.stage_eq.symm.trans hs) (by simp), fun d hd => ?_⟩
    rw [h.diagnostics_eq] at hd
    exact LoxScan.fault_ne_unreadableNumber hd

/-- **No numeral fails to be read** at any moment of a scan. -/
theorem readsNumerals_of_run? {source : String} {n : Nat} {m : Cursor}
    (h : (atStart source).run? n = some m) : m.ReadsNumerals := by
  obtain ⟨_, hsound⟩ := exists_sound_of_run? h
  exact hsound.readsNumerals

/-! ### The result of the scan -/

/-- **A scan by byte offsets** never leaves the character boundaries, finds what the scan of the
source finds, and leaves its log.  No step fails; each element is read to its end, which is one
character further at least; and the scan ends, with no more rounds of its loops in all than the
source has characters. -/
theorem scan_by_offsets (source : String) :
    (∀ n, ∃ m, (atStart source).run? n = some m ∧ m.source = source ∧ m.InPlace) ∧
      (∀ n m, (atStart source).run? n = some m → m.stage = .element → m.ReadsOn) ∧
      (∃ n ≤ 6 * source.utf8ByteSize + 2, ∃ m, (atStart source).run? n = some m ∧
        m.stage = .done ∧ m.tokens = (scan source).tokens ∧
        m.diagnostics = (scan source).diagnostics ∧ m.log = scanLog source) ∧
      ∀ n, (atStart source).rounds n ≤ source.length := by
  have hrun := (Sound.between (settled_atStart source)).run
  refine ⟨fun n => ?_, fun n m hm hs => ?_, ?_, fun n => ?_⟩
  · obtain ⟨m, rest, hm, hsound, honward⟩ := hrun n
    exact ⟨m, hm, honward.source_eq, hsound.inPlace⟩
  · obtain ⟨_, hsound⟩ := exists_sound_of_run? hm
    exact hsound.readsOn hs
  · obtain ⟨n, hn, m, es, last, hm, hsource, hfinished⟩ := exists_finished source
    refine ⟨n, hn, m, hm, hfinished.stage_eq, ?_, ?_, ?_⟩
    · rw [hfinished.tokens_eq, hsource]
    · rw [hfinished.diagnostics_eq, hsource]
    · rw [hfinished.log_eq, hsource]
  · obtain ⟨m, rest, _, _, honward⟩ := hrun n
    have hrounds := honward.rounds_le
    rw [String.length_toList] at hrounds
    omega

example : ((atStart "é\"ü").run? 13).map (fun m => (m.start, m.pos, m.stage)) =
    some (2, 5, .done) := by decide +kernel

end Cursor

end LoxScan
