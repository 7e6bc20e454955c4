/-
Closing an open string repairs a scan.

* `exists_cut_of_not_closed` — a source that is not closed ends in an open string;
* `StandBefore.close_string` — with a quote behind it this is a string, and anything may follow;
* `stringToken` — the token of the string that begins behind a text;
* `events_of_openString`, `events_of_closed` — the two scans differ in their last event;
* `Repaired` — what a scan becomes when the open string is closed and the source goes on;
* `scan_close_string` — every scan with an open string becomes that.

Design notes: the elements in front of the open string see a quote behind themselves in either case,
and nothing else is looked at.  Behind the second quote the scan begins anew.
-/
import LoxScan.Proofs.Concatenation
import LoxScan.Proofs.Lookahead

namespace LoxScan

/-! ### The open string -/

/-- **A source that is not closed** ends in an open string. -/
theorem exists_cut_of_not_closed {source : String} (h : ¬ Closed source) :
    ∃ es body, cut source.toList = es ++ [.openString body] := by
  rw [closed_iff] at h
  push Not at h
  obtain ⟨e, he, body, rfl⟩ := h
  obtain ⟨done, todo, hcut⟩ := List.append_of_mem he
  have hsplit : cut source.toList = (done ++ [.openString body]) ++ todo := by simp [hcut]
  obtain ⟨hstand, htodo⟩ := standBefore_of_cut hsplit
  have hend : todo.flatMap Element.text = [] := (standBefore_append.mp hstand).2.2.1
  -- an open string leaves nothing, so no elements follow it
  rw [hend, cut_nil] at htodo
  exact ⟨done, body, by rw [hsplit, ← htodo, List.append_nil]⟩

theorem StandBefore.quote_not_mem {es : List Element} {body s : List Char}
    (h : StandBefore (es ++ [.openString body]) s) : '"' ∉ body := by
  cases (standBefore_append.mp h).2.1 with
  | wellFormed hwf => exact hwf.elim
  | openString hbody => exact hbody

/-- **With a quote behind it** an open string is a string, and anything may follow. -/
theorem StandBefore.close_string {es : List Element} {body s : List Char}
    (h : StandBefore (es ++ [.openString body]) s) {v : List Char} (hv : '"' ∉ v)
    (t : List Char) : StandBefore (es ++ [.string (body ++ v)]) t := by
  have hwf : (Element.string (body ++ v)).WellFormed := by
    show '"' ∉ body ++ v
    simp [h.quote_not_mem, hv]
  exact h.exchange_last (by decide) rfl rfl (.wellFormed hwf) trivial

/-! ### The last event -/

/-- The token of the string that begins behind a text. -/
def stringToken (before value : List Char) : Token where
  kind := .string
  lexeme := String.ofList ('"' :: (value ++ ['"']))
  literal := some (.text (String.ofList value))
  line := lineBehind before

/-- A scan ends with the event of the last element. -/
theorem events_of_last {source : String} {es : List Element} {e : Element}
    (h : cut source.toList = es ++ [e]) : (scan source).events =
      eventsFrom 1 es ++ (e.event? (lineBehind (es.flatMap Element.text))).toList := by
  have hline : lineAfter 1 es = lineBehind (es.flatMap Element.text) := lineAfter_lineBehind [] es
  rw [scan_events, h, eventsFrom_append, hline, eventsFrom, eventsFrom, List.append_nil]

/-! ### The closed source -/

section

variable {a : String} {es : List Element} {body : List Char}
  (h : cut a.toList = es ++ [.openString body]) {v : String} (hv : '"' ∉ v.toList)

include h

theorem standBefore_of_openString : StandBefore (es ++ [.openString body]) [] := by
  rw [← h]
  exact standBefore_cut a.toList

theorem toList_of_openString : a.toList = es.flatMap Element.text ++ '"' :: body := by
  rw [← flatMap_text_cut a.toList, h]
  simp [Element.text]

theorem events_of_openString : (scan a).events =
    eventsFrom 1 es ++ [.fault ⟨.unterminatedString, (scan a).lastLine⟩] := by
  have htext : a.toList = es.flatMap Element.text ++ (Element.openString body).text :=
    toList_of_openString h
  rw [events_of_last h, scan_lastLine_eq, htext, lineBehind_append]
  rfl

/-- The diagnostic of an open string is the last one. -/
theorem diagnostics_of_openString : (scan a).diagnostics =
    (eventsFrom 1 es).filterMap Event.diagnostic? ++
      [⟨.unterminatedString, (scan a).lastLine⟩] := by
  rw [Scan.diagnostics, events_of_openString h, List.filterMap_append]
  rfl

/-- An open string is no token. -/
theorem tokens_of_openString :
    (scan a).tokens.dropLast = (eventsFrom 1 es).filterMap Event.token? := by
  rw [Scan.tokens, List.dropLast_concat, events_of_openString h, List.filterMap_append]
  exact List.append_nil _

include hv

/-- **A closed source** ends in the string. -/
theorem cut_closed : cut (a ++ v ++ "\"").toList = es ++ [.string (body ++ v.toList)] := by
  have htext : (a ++ v ++ "\"").toList =
      (es ++ [Element.string (body ++ v.toList)]).flatMap Element.text := by
    rw [String.toList_append, String.toList_append, toList_of_openString h]
    simp [Element.text]
  rw [htext]
  exact ((standBefore_of_openString h).close_string hv []).cut_flatMap

/-- Behind the string the scan begins anew. -/
theorem scan_closed_append (b : String) : scan (a ++ v ++ "\"" ++ b) =
    (scan (a ++ v ++ "\"")).followedBy ((a ++ v).toList.count '\n') (scan b) := by
  have hstand : StandBefore (cut (a ++ v ++ "\"").toList) b.toList := by
    rw [cut_closed h hv]
    exact (standBefore_of_openString h).close_string hv b.toList
  have hcount : (a ++ v ++ "\"").toList.count '\n' = (a ++ v).toList.count '\n' := by simp
  rw [scan_append_eq hstand, hcount]

theorem events_of_closed : (scan (a ++ v ++ "\"")).events = eventsFrom 1 es ++
    [.token (stringToken (es.flatMap Element.text) (body ++ v.toList))] :=
  events_of_last (cut_closed h hv)

/-- **The string is added** to the tokens of the source. -/
theorem tokens_of_closed : (scan (a ++ v ++ "\"")).tokens.dropLast =
    (scan a).tokens.dropLast ++ [stringToken (es.flatMap Element.text) (body ++ v.toList)] := by
  rw [tokens_of_openString h, Scan.tokens, List.dropLast_concat, events_of_closed h hv,
    List.filterMap_append]
  rfl

/-- **The diagnostic is gone** from the closed source. -/
theorem diagnostics_of_closed :
    (scan (a ++ v ++ "\"")).diagnostics = (scan a).diagnostics.dropLast := by
  rw [diagnostics_of_openString h, List.dropLast_concat, Scan.diagnostics, events_of_closed h hv,
    List.filterMap_append]
  exact List.append_nil _

end

/-! ### The repair -/

/-- What the scan of a source becomes when its open string is closed behind `v` and the source goes
on with `b`.  The unmatched quote stands between `before` and `body`. -/
structure Repaired (a v b : String) (before body : List Char) : Prop where
  /-- The source is not closed because of this quote. -/
  place : ⟨before, .openString body⟩ ∈ placed a.toList
  source_eq : a.toList = before ++ '"' :: body
  unmatched : '"' ∉ body
  /-- The last diagnostic is about it. -/
  last_diagnostic : (scan a).diagnostics.getLast? = some ⟨.unterminatedString, (scan a).lastLine⟩
  /-- The tokens go on with the string and with those of the other source. -/
  tokens : (scan (a ++ v ++ "\"" ++ b)).tokens =
    (scan a).tokens.dropLast ++ stringToken before (body ++ v.toList) ::
      (scan b).tokens.map (Token.later ((a ++ v).toList.count '\n'))
  /-- The diagnostics go on with those of the other source, without the last one. -/
  diagnostics : (scan (a ++ v ++ "\"" ++ b)).diagnostics =
    (scan a).diagnostics.dropLast ++
      (scan b).diagnostics.map (Diagnostic.later ((a ++ v).toList.count '\n'))
  /-- The string stands on the line of its quote. -/
  string_line : (stringToken before (body ++ v.toList)).line.toNat = 1 + before.count '\n'
  /-- The lines of the other source are counted on. -/
  token_line : ∀ t ∈ (scan b).tokens,
    (t.later ((a ++ v).toList.count '\n')).line.toNat = t.line.toNat + (a ++ v).toList.count '\n'
  diagnostic_line : ∀ d ∈ (scan b).diagnostics,
    (d.later ((a ++ v).toList.count '\n')).line.toNat = d.line.toNat + (a ++ v).toList.count '\n'
  /-- A quote alone adds the string, takes the diagnostic away and leaves the end of the input. -/
  quote_tokens : (scan (a ++ "\"")).tokens.dropLast =
    (scan a).tokens.dropLast ++ [stringToken before body]
  quote_diagnostics : (scan (a ++ "\"")).diagnostics = (scan a).diagnostics.dropLast
  quote_end : (scan (a ++ "\"")).tokens.getLast? = (scan a).tokens.getLast?

theorem repaired_of_cut {a v b : String} {es : List Element} {body : List Char}
    (h : cut a.toList = es ++ [.openString body]) (hv : '"' ∉ v.toList)
    (hfit : LinesFit (a ++ v ++ "\"" ++ b)) : Repaired a v b (es.flatMap Element.text) body := by
  have hstand := standBefore_of_openString h
  have hsource := toList_of_openString h
  have hbefore : es.flatMap Element.text <+: (a ++ v ++ "\"" ++ b).toList := by
    rw [String.append_assoc, String.append_assoc, String.toList_append, hsource, List.append_assoc]
    exact List.prefix_append _ _
  have hline := hfit.toNat_lineBehind hbefore
  have htotal : (a ++ v ++ "\"" ++ b).toList.count '\n' =
      b.toList.count '\n' + (a ++ v).toList.count '\n' := by
    simp
    omega
  rw [LinesFit, htotal] at hfit
  -- a quote alone closes the string behind an empty text
  have hnone : '"' ∉ "".toList := by simp
  have hquote := tokens_of_closed h hnone
  have hfewer := diagnostics_of_closed h hnone
  rw [String.append_empty] at hquote hfewer
  rw [String.toList_empty, List.append_nil] at hquote
  constructor
  case place => exact mem_placed_iff.mpr ⟨es, [], hstand, rfl, by simp [hsource, Element.text]⟩
  case source_eq => exact hsource
  case unmatched => exact hstand.quote_not_mem
  case last_diagnostic =>
    rw [diagnostics_of_openString h]
    exact List.getLast?_concat
  case tokens =>
    rw [scan_closed_append h hv, Scan.tokens_followedBy, tokens_of_closed h hv, List.append_assoc,
      List.singleton_append]
  case diagnostics =>
    rw [scan_closed_append h hv, Scan.diagnostics_followedBy, diagnostics_of_closed h hv]
  case string_line => exact hline
  case token_line => exact toNat_later_of_mem_tokens hfit
  case diagnostic_line => exact toNat_later_of_mem_diagnostics hfit
  case quote_tokens => exact hquote
  case quote_diagnostics => exact hfewer
  case quote_end =>
    have hend : (scan (a ++ "\"")).lastLine = (scan a).lastLine := by
      rw [scan_lastLine_eq, scan_lastLine_eq, lineBehind, lineBehind]
      simp
    rw [Scan.tokens, Scan.tokens, List.getLast?_concat, List.getLast?_concat, hend]

/-- **Closing an open string repairs the scan**, and the scan goes on behind it as if it began
anew. -/
theorem scan_close_string (a v b : String) (hopen : ¬ Closed a) (hv : '"' ∉ v.toList)
    (hfit : LinesFit (a ++ v ++ "\"" ++ b)) : ∃ before body, Repaired a v b before body := by
  obtain ⟨es, body, hcut⟩ := exists_cut_of_not_closed hopen
  exact ⟨_, body, repaired_of_cut hcut hv hfit⟩

/-- The string may be closed on another line, and the source may go on with the same faults. -/
theorem scan_close_string_on_next_line :
    let a := "1.\n@ \"a"
    let v := "b\n"
    let b := "5 @ \""
    ¬ Closed a ∧ '"' ∉ v.toList ∧ LinesFit (a ++ v ++ "\"" ++ b) ∧
      (∃ before body, Repaired a v b before body) ∧
      (scan (a ++ v ++ "\"" ++ b)).diagnostics =
        [⟨.unexpectedCharacter '@', 2⟩, ⟨.unexpectedCharacter '@', 3⟩,
          ⟨.unterminatedString, 3⟩] := by
  intro a v b
  have hopen : ¬ Closed a := by decide +kernel
  have hv : '"' ∉ v.toList := by decide +kernel
  have hfit : LinesFit (a ++ v ++ "\"" ++ b) := by decide +kernel
  obtain ⟨before, body, hrepaired⟩ := scan_close_string a v b hopen hv hfit
  refine ⟨hopen, hv, hfit, ⟨before, body, hrepaired⟩, ?_⟩
  rw [hrepaired.diagnostics]
  decide +kernel

end LoxScan
