/-
The log of a scan is a transcript of it.

* `Finding`, `findings` — the tokens and faults of a source, each with where it begins;
* `Event.Heads` — a text begins with what an event is about;
* `findings_pairwise_lt`, `heads_of_mem_findings` — no two findings stand in one place, and each of
  them begins there;
* `found_eq_findings` — at any moment of a scan, those are found that begin in what is read;
* `Transcribed` — what it means that a log is a faithful and complete account of a scan;
* `scanLog_transcribed` — the log is one, for every source.

Design notes: tokens and diagnostics are returned in two lists, which say nothing about what came
first.  The places of the findings do, so the order of the log is stated with them.
-/
import LoxScan.Proofs.Lookahead
import LoxScan.Proofs.Utf8
import LoxScan.Scan.Log

namespace LoxScan

/-! ### Findings -/

/-- A token or a fault, and how many characters of the source stand before it. -/
structure Finding where
  position : Nat
  event : Event
  deriving DecidableEq

/-- What is found in a place. -/
def Placed.finding? (p : Placed) : Option Finding :=
  p.event?.map fun event => ⟨p.before.length, event⟩

/-- The tokens and faults of a source in the order of their places. -/
def findings (source : String) : List Finding :=
  (placed source.toList).filterMap Placed.finding?

theorem Placed.finding?_eq_some {p : Placed} {f : Finding} (h : p.finding? = some f) :
    p.event? = some f.event ∧ f.position = p.before.length := by
  obtain ⟨event, hevent, rfl⟩ := Option.map_eq_some_iff.mp h
  exact ⟨hevent, rfl⟩

theorem map_event_filterMap (ps : List Placed) :
    (ps.filterMap Placed.finding?).map Finding.event = ps.filterMap Placed.event? := by
  have hevent : ∀ p : Placed, p.finding?.map Finding.event = p.event? := by
    intro p
    rw [Placed.finding?, Option.map_map]
    exact Option.map_id'
  rw [List.map_filterMap]
  exact List.filterMap_congr fun p _ => hevent p

/-- A scan has no other events. -/
theorem map_event_findings (source : String) :
    (findings source).map Finding.event = (scan source).events := by
  rw [findings, map_event_filterMap, scan_events_eq_placed]

/-- **Findings are in the order of the source**, and no two of them begin in one place. -/
theorem findings_pairwise_lt (source : String) :
    (findings source).Pairwise fun f g => f.position < g.position := by
  rw [findings, List.pairwise_filterMap]
  refine (placed_pairwise_lt source.toList).imp fun {p q} hpq f hf g hg => ?_
  rw [(Placed.finding?_eq_some hf).2, (Placed.finding?_eq_some hg).2]
  exact hpq

/-! ### Findings so far -/

theorem placedFrom_append (before : List Char) (es fs : List Element) :
    placedFrom before (es ++ fs) =
      placedFrom before es ++ placedFrom (before ++ es.flatMap Element.text) fs := by
  induction es generalizing before with
  | nil => simp [placedFrom]
  | cons e es ih => simp [placedFrom, ih]

theorem stop_le_of_mem_placedFrom {before : List Char} {es : List Element} {p : Placed}
    (h : p ∈ placedFrom before es) : p.stop ≤ (before ++ es.flatMap Element.text).length := by
  obtain ⟨done, todo, rfl, hbefore⟩ := mem_placedFrom_iff.mp h
  rw [Placed.stop, hbefore]
  simp only [List.flatMap_append, List.flatMap_cons, List.length_append]
  omega

/-- The events that a scan has found behind some elements. -/
theorem foldl_next_found (es : List Element) :
    (es.foldl Progress.next ⟨[], 1⟩).found.reverse =
      (placedFrom [] es).filterMap Placed.event? := by
  have hevents : eventsFrom 1 es = _ := eventsFrom_lineBehind [] es
  rw [foldl_next, List.append_nil, List.reverse_reverse, hevents]

/-- **What a scan has found so far** are the findings that begin in what it has read. -/
theorem found_eq_findings {source : String} {done todo : List Element}
    (h : cut source.toList = done ++ todo) :
    (done.foldl Progress.next ⟨[], 1⟩).found.reverse =
      ((findings source).filter fun f => f.position < (done.flatMap Element.text).length).map
        Finding.event := by
  have hplaced : placed source.toList =
      placedFrom [] done ++ placedFrom (done.flatMap Element.text) todo := by
    rw [placed, h, placedFrom_append, List.nil_append]
  rw [foldl_next_found, findings, hplaced, List.filterMap_append, List.filter_append]
  -- what is read begins before the end of it, and what is not read begins no earlier
  have hread : ∀ f ∈ (placedFrom [] done).filterMap Placed.finding?,
      f.position < (done.flatMap Element.text).length := by
    intro f hf
    obtain ⟨p, hp, hpf⟩ := List.mem_filterMap.mp hf
    have hstop := stop_le_of_mem_placedFrom hp
    have hmem : p ∈ placed source.toList := by
      rw [hplaced]
      exact List.mem_append_left _ hp
    rw [(Placed.finding?_eq_some hpf).2]
    exact Nat.lt_of_lt_of_le (lt_stop_of_mem_placed hmem).1 hstop
  have hunread : ∀ f ∈ (placedFrom (done.flatMap Element.text) todo).filterMap Placed.finding?,
      ¬ f.position < (done.flatMap Element.text).length := by
    intro f hf
    obtain ⟨p, hp, hpf⟩ := List.mem_filterMap.mp hf
    rw [(Placed.finding?_eq_some hpf).2]
    exact Nat.not_lt.mpr (prefix_of_mem_placedFrom hp).length_le
  rw [List.filter_eq_self.mpr (by simpa using hread),
    List.filter_eq_nil_iff.mpr (by simpa using hunread), List.append_nil, map_event_filterMap]

/-! ### Where findings begin -/

/-- The text begins with what the event is about. -/
inductive Event.Heads : Event → List Char → Prop
  /-- A token begins with its lexeme. -/
  | token (t : Token) (rest : List Char) : Heads (.token t) (t.lexeme.toList ++ rest)
  | unexpected (c : Char) (line : UInt32) (rest : List Char) :
      Heads (.fault ⟨.unexpectedCharacter c, line⟩) (c :: rest)
  /-- An open string begins with a quote, and none closes it. -/
  | unterminated {body : List Char} (line : UInt32) :
      '"' ∉ body → Heads (.fault ⟨.unterminatedString, line⟩) ('"' :: body)

theorem Element.heads_of_event? {e : Element} {rest : List Char} (hread : e.Readable)
    (hend : e.EndsBefore rest) {line : UInt32} {event : Event} (h : e.event? line = some event) :
    event.Heads (e.text ++ rest) := by
  rcases e.denotes_or_breaks_or_silent with ⟨g, hg⟩ | ⟨f, hf⟩ | hsilent
  · rw [hg.event?] at h
    obtain rfl := Option.some.inj h
    have hlexeme : (g.onLine line).lexeme.toList = e.text := by
      rw [Sign.onLine, String.toList_ofList, hg.lexeme_eq]
    rw [← hlexeme]
    exact .token _ rest
  · rw [hf.event?] at h
    obtain rfl := Option.some.inj h
    cases hf with
    | openString body =>
      obtain rfl : rest = [] := hend
      rw [List.append_nil]
      cases hread with
      | wellFormed hwf => exact hwf.elim
      | openString hbody => exact .unterminated _ hbody
    | stray c => exact .unexpected c _ rest
  · rw [hsilent.event?] at h
    exact absurd h (by simp)

/-- **A finding begins where it stands.** -/
theorem heads_of_mem_findings {source : String} {f : Finding} (h : f ∈ findings source) :
    f.event.Heads (source.toList.drop f.position) := by
  obtain ⟨p, hp, hpf⟩ := List.mem_filterMap.mp h
  obtain ⟨hevent, hposition⟩ := Placed.finding?_eq_some hpf
  obtain ⟨c, rest, hsource, helement⟩ := placed_spec hp
  rw [Placed.event?, helement] at hevent
  rw [hposition, ← hsource, List.drop_left, ← Element.text_read_append]
  exact Element.heads_of_event? (Element.readable_read c rest) (Element.endsBefore_read c rest)
    hevent

/-! ### The records -/

/-- Every event is a token or a fault, and not both. -/
theorem length_events (es : List Event) :
    es.length = (es.filterMap Event.token?).length + (es.filterMap Event.diagnostic?).length := by
  induction es with
  | nil => rfl
  | cons e es ih =>
    cases e with
    | token t =>
      have htoken : (Event.token t).token? = some t := rfl
      have hfault : (Event.token t).diagnostic? = none := rfl
      rw [List.filterMap_cons_some htoken, List.filterMap_cons_none hfault, List.length_cons,
        List.length_cons, ih]
      omega
    | fault d =>
      have htoken : (Event.fault d).token? = none := rfl
      have hfault : (Event.fault d).diagnostic? = some d := rfl
      rw [List.filterMap_cons_none htoken, List.filterMap_cons_some hfault, List.length_cons,
        List.length_cons, ih]
      omega

/-- The rows of one kind of events are the rows of what these events are. -/
theorem map_display_filter {α : Type} {select : Event → Option α} {row : α → String}
    (h : ∀ e a, select e = some a → e.display = row a) (es : List Event) :
    (es.filter fun e => (select e).isSome).map Event.display = (es.filterMap select).map row := by
  induction es with
  | nil => rfl
  | cons e es ih =>
    cases he : select e with
    | none =>
      rw [List.filter_cons_of_neg (by simp [he]), List.filterMap_cons_none he]
      exact ih
    | some a =>
      rw [List.filter_cons_of_pos (by simp [he]), List.filterMap_cons_some he, List.map_cons,
        List.map_cons, h e a he, ih]

/-! ### The transcript -/

/-- The log is a faithful and complete account of the scan of a source. -/
structure Transcribed (source : String) (log : List LogRecord) : Prop where
  /-- There is a record for each finding, one record before them and one behind them. -/
  records : log =
    ⟨.debug, "Scanning " ++ (utf8 source.toList).length.repr ++ " bytes"⟩ ::
      (findings source).map (fun f => ⟨.trace, f.event.display⟩) ++
        [⟨.debug, "Scanned " ++ (scan source).tokens.length.repr ++ " tokens with " ++
          (scan source).diagnostics.length.repr ++ " errors"⟩]
  /-- Each finding begins where it stands in the source. -/
  heads : ∀ f ∈ findings source, f.event.Heads (source.toList.drop f.position)
  /-- The findings are in the order of the source. -/
  in_order : (findings source).Pairwise fun f g => f.position < g.position
  /-- At any moment of the scan, those are found that begin in what is read. -/
  so_far : ∀ done todo, cut source.toList = done ++ todo →
    (done.foldl Progress.next ⟨[], 1⟩).found.reverse =
      ((findings source).filter (·.position < (done.flatMap Element.text).length)).map (·.event)
  /-- The tokens among them are all tokens but the end of the input. -/
  tokens_eq : (scan source).tokens =
    (findings source).filterMap (·.event.token?) ++ [Token.endOfInput (scan source).lastLine]
  /-- The faults among them are all diagnostics. -/
  diagnostics_eq : (scan source).diagnostics = (findings source).filterMap (·.event.diagnostic?)
  /-- Without the faults, the rows of the tokens are left. -/
  token_rows : ((findings source).filter (·.event.token?.isSome)).map (·.event.display) =
    (scan source).tokens.dropLast.map Token.display
  /-- Without the tokens, the rows of the diagnostics are left. -/
  diagnostic_rows : ((findings source).filter (·.event.diagnostic?.isSome)).map (·.event.display) =
    (scan source).diagnostics.map Diagnostic.display
  /-- The end of the input has no record of its own. -/
  trace_count : log.countP (·.level = .trace) + 1 =
    (scan source).tokens.length + (scan source).diagnostics.length

theorem filterMap_findings {α : Type} (source : String) (select : Event → Option α) :
    (findings source).filterMap (fun f => select f.event) =
      (scan source).events.filterMap select := by
  rw [← map_event_findings, List.filterMap_map]
  rfl

theorem map_display_filter_findings {α : Type} (source : String) {select : Event → Option α}
    {row : α → String} (h : ∀ e a, select e = some a → e.display = row a) :
    ((findings source).filter fun f => (select f.event).isSome).map (·.event.display) =
      ((scan source).events.filterMap select).map row := by
  rw [← map_display_filter h, ← map_event_findings, List.filter_map, List.map_map]
  rfl

theorem scanLog_eq (source : String) :
    scanLog source = startRecord source ::
      (findings source).map (fun f => f.event.record) ++
        [endRecord (scan source).tokens (scan source).diagnostics] := by
  rw [scanLog, ← map_event_findings, List.map_map]
  rfl

/-- **The log is a transcript** of the scan, for every source. -/
theorem scanLog_transcribed (source : String) : Transcribed source (scanLog source) where
  records := by
    rw [scanLog_eq, startRecord, utf8ByteSize_eq]
    rfl
  heads _ h := heads_of_mem_findings h
  in_order := findings_pairwise_lt source
  so_far _ _ h := found_eq_findings h
  tokens_eq := by rw [filterMap_findings, Scan.tokens]
  diagnostics_eq := by rw [filterMap_findings, Scan.diagnostics]
  token_rows := by
    rw [Scan.tokens, List.dropLast_concat]
    refine map_display_filter_findings source fun e t h => ?_
    cases e with
    | token _ => rw [← Option.some.inj h, Event.display]
    | fault _ => cases h
  diagnostic_rows := by
    refine map_display_filter_findings source fun e d h => ?_
    cases e with
    | token _ => cases h
    | fault _ => rw [← Option.some.inj h, Event.display]
  trace_count := by
    have hlength := length_events (scan source).events
    have hcount : (scanLog source).countP (·.level = .trace) = (scan source).events.length := by
      rw [scanLog, List.countP_append, List.countP_cons_of_neg (by simp [startRecord]),
        List.countP_map, List.countP_singleton]
      simp [endRecord, Event.record]
    rw [hcount, Scan.tokens, Scan.diagnostics, List.length_append, List.length_singleton]
    omega

end LoxScan
