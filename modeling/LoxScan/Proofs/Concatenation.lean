/-
Scanning texts that are joined.

* `Token.later`, `Diagnostic.later` — the same some lines further down;
* `Scan.followedBy` — a scan that goes on with another one further down;
* `Closed` — the source ends outside of strings;
* `scan_append_eq` — where the first of two texts is cut as if it were alone, the scan of both is the
  scan of the first followed by that of the second;
* `scan_newline_eq` — so it is if the first is closed and a newline stands between them;
* `standBefore_blank_or`, `scan_append_blank` — a blank behind a closed source;
* `scan_append_newline` — tokens and diagnostics behind a newline, with lines as numbers.

Design notes: whatever an element looks for behind itself, a newline is not it.  So every element of
the first source still ends where it ended, unless it is an open string, which takes all that
follows.
-/
import LoxScan.Proofs.Continuation
import LoxScan.Proofs.Spelling

namespace LoxScan

/-! ### The same further down -/

/-- The token `k` lines further down. -/
def Token.later (k : Nat) (t : Token) : Token := { t with line := t.line + UInt32.ofNat k }

/-- The diagnostic `k` lines further down. -/
def Diagnostic.later (k : Nat) (d : Diagnostic) : Diagnostic :=
  { d with line := d.line + UInt32.ofNat k }

/-- The event `k` lines further down. -/
def Event.later (k : Nat) : Event → Event
  | token t => token (t.later k)
  | fault d => fault (d.later k)

theorem Event.later_zero : Event.later 0 = id := by
  have hline : ∀ line : UInt32, line + UInt32.ofNat 0 = line := UInt32.add_zero
  funext e
  cases e <;> simp only [later, Token.later, Diagnostic.later, hline, id]

theorem Event.later_later (j k : Nat) (e : Event) : (e.later j).later k = e.later (k + j) := by
  cases e <;> simp only [later, Token.later, Diagnostic.later, UInt32.add_assoc, ← UInt32.ofNat_add,
    Nat.add_comm]

@[simp] theorem Event.token?_later (k : Nat) (e : Event) :
    (e.later k).token? = e.token?.map (Token.later k) := by
  cases e <;> rfl

@[simp] theorem Event.diagnostic?_later (k : Nat) (e : Event) :
    (e.later k).diagnostic? = e.diagnostic?.map (Diagnostic.later k) := by
  cases e <;> rfl

theorem filterMap_token?_later (k : Nat) (es : List Event) :
    (es.map (Event.later k)).filterMap Event.token? =
      (es.filterMap Event.token?).map (Token.later k) := by
  simp only [List.filterMap_map, List.map_filterMap, Function.comp_def, Event.token?_later]

theorem filterMap_diagnostic?_later (k : Nat) (es : List Event) :
    (es.map (Event.later k)).filterMap Event.diagnostic? =
      (es.filterMap Event.diagnostic?).map (Diagnostic.later k) := by
  simp only [List.filterMap_map, List.map_filterMap, Function.comp_def, Event.diagnostic?_later]

theorem Element.event?_add (e : Element) (line : UInt32) (k : Nat) :
    e.event? (line + UInt32.ofNat k) = (e.event? line).map (Event.later k) := by
  rcases e.denotes_or_breaks_or_silent with ⟨g, hg⟩ | ⟨f, hf⟩ | hsilent
  · simp only [hg.event?, Option.map_some]
    rfl
  · simp only [hf.event?, Option.map_some, Event.later, Diagnostic.later, UInt32.add_assoc,
      UInt32.add_comm (UInt32.ofNat k)]
  · simp only [hsilent.event?, Option.map_none]

/-- The events of elements `k` lines further down. -/
theorem eventsFrom_add (line : UInt32) (k : Nat) (es : List Element) :
    eventsFrom (line + UInt32.ofNat k) es = (eventsFrom line es).map (Event.later k) := by
  induction es generalizing line with
  | nil => rfl
  | cons e es ih =>
    have hline : line + UInt32.ofNat k + UInt32.ofNat e.newlines =
        line + UInt32.ofNat e.newlines + UInt32.ofNat k := by
      rw [UInt32.add_assoc, UInt32.add_comm (UInt32.ofNat k), ← UInt32.add_assoc]
    rw [eventsFrom, eventsFrom, List.map_append, hline, ih, Element.event?_add, Option.toList_map]

theorem eventsFrom_append (line : UInt32) (es fs : List Element) :
    eventsFrom line (es ++ fs) = eventsFrom line es ++ eventsFrom (lineAfter line es) fs := by
  induction es generalizing line with
  | nil => rfl
  | cons e es ih => rw [List.cons_append, eventsFrom, eventsFrom, lineAfter, ih, List.append_assoc]

/-! ### One scan after another -/

namespace Scan

/-- The scan, and then the other one `k` lines further down. -/
def followedBy (s : Scan) (k : Nat) (t : Scan) : Scan where
  events := s.events ++ t.events.map (Event.later k)
  lastLine := t.lastLine + UInt32.ofNat k

theorem tokens_followedBy (s : Scan) (k : Nat) (t : Scan) :
    (s.followedBy k t).tokens = s.tokens.dropLast ++ t.tokens.map (Token.later k) := by
  have hend : Token.endOfInput (t.lastLine + UInt32.ofNat k) =
      (Token.endOfInput t.lastLine).later k := rfl
  simp only [tokens, followedBy, List.filterMap_append, filterMap_token?_later, hend,
    List.dropLast_concat, List.map_append, List.map_singleton, List.append_assoc]

theorem diagnostics_followedBy (s : Scan) (k : Nat) (t : Scan) :
    (s.followedBy k t).diagnostics = s.diagnostics ++ t.diagnostics.map (Diagnostic.later k) := by
  simp only [diagnostics, followedBy, List.filterMap_append, filterMap_diagnostic?_later]

/-- A line without an event between two scans only moves the second one. -/
theorem followedBy_followedBy_of_silent {t : Scan} (ht : t.events = []) (s u : Scan) (j k : Nat) :
    s.followedBy j (t.followedBy k u) = s.followedBy (k + j) u := by
  simp only [followedBy, ht, List.nil_append, List.map_map, Function.comp_def, Event.later_later,
    UInt32.add_assoc, ← UInt32.ofNat_add, Nat.add_comm]

end Scan

/-! ### Closed sources -/

/-- The source does not end inside a string. -/
def Closed (source : String) : Prop :=
  ∀ d ∈ (scan source).diagnostics, d.fault ≠ .unterminatedString

instance (source : String) : Decidable (Closed source) :=
  inferInstanceAs (Decidable (∀ d ∈ (scan source).diagnostics, _))

theorem Closed.congr {a b : String} (h : scan a = scan b) : Closed a ↔ Closed b := by
  rw [Closed, Closed, h]

theorem Element.fault?_eq_unterminatedString_iff {e : Element} :
    e.fault? = some .unterminatedString ↔ ∃ body, e = .openString body := by
  cases e <;> simp [Element.fault?]

/-- A source is closed if its cut has no open string. -/
theorem closed_iff {source : String} :
    Closed source ↔ ∀ e ∈ cut source.toList, ∀ body, e ≠ .openString body := by
  have hfaults : Closed source ↔
      Fault.unterminatedString ∉ (scan source).diagnostics.map Diagnostic.fault := by
    simp [Closed]
  rw [hfaults, scan_faults]
  constructor
  · rintro hnone e he body rfl
    exact hnone (List.mem_filterMap.mpr ⟨_, he, rfl⟩)
  · intro hopen hmem
    obtain ⟨e, he, hfault⟩ := List.mem_filterMap.mp hmem
    obtain ⟨body, rfl⟩ := Element.fault?_eq_unterminatedString_iff.mp hfault
    exact hopen _ he body rfl

/-! ### A newline between two sources -/

/-- White space prolongs nothing but an open string and, unless it is a newline, a comment. -/
theorem Element.endsBefore_separator {e : Element} (hopen : ∀ body, e ≠ .openString body) {c : Char}
    (hc : c = ' ' ∨ c = '\t' ∨ c = '\r' ∨ c = '\n')
    (hcomment : ∀ body, e = .comment body → c = '\n') (rest : List Char) :
    e.EndsBefore (c :: rest) := by
  cases e with
  | openString body => exact absurd rfl (hopen body)
  | comment body => simp [EndsBefore, hcomment body rfl]
  | mark m => rcases hc with rfl | rfl | rfl | rfl <;> simp [EndsBefore, Mark.GrowsBy]
  | word letters =>
    intro d hd
    cases hd
    rcases hc with rfl | rfl | rfl | rfl <;> decide +kernel
  | number n => rcases hc with rfl | rfl | rfl | rfl <;> simp [EndsBefore, Numeral.EndsBefore]
  | _ => trivial

theorem cut_newline_cons (t : List Char) : cut ('\n' :: t) = .newline :: cut t :=
  cut_text_append (e := .newline) trivial trivial

/-- Newlines only move what follows them further down. -/
theorem eventsFrom_cut_newlines (line : UInt32) (n : Nat) (s : List Char) :
    eventsFrom line (cut (List.replicate n '\n' ++ s)) =
      eventsFrom (line + UInt32.ofNat n) (cut s) := by
  induction n generalizing line with
  | zero =>
    have hsame : line + UInt32.ofNat 0 = line := UInt32.add_zero line
    rw [hsame, List.replicate_zero, List.nil_append]
  | succ n ih =>
    have hnext : line + UInt32.ofNat (n + 1) = line + UInt32.ofNat 1 + UInt32.ofNat n := by
      rw [UInt32.add_assoc, ← UInt32.ofNat_add, Nat.add_comm]
    rw [List.replicate_succ, List.cons_append, cut_newline_cons, eventsFrom, hnext]
    exact ih _

/-- Elements that are all closed stand before a newline. -/
theorem StandBefore.cons_newline {es : List Element} (h : StandBefore es [])
    (hopen : ∀ e ∈ es, ∀ body, e ≠ .openString body) (t : List Char) :
    StandBefore es ('\n' :: t) := by
  refine h.cons_of_last rfl fun e he => ?_
  have hclosed := hopen e (List.mem_of_getLast? he)
  exact Element.endsBefore_separator hclosed (by simp) (fun _ _ => rfl) t

/-- **A newline parts a text** outside of strings: what stands before it is cut as if it were
alone. -/
theorem cut_append_newline {s : List Char} (hopen : ∀ e ∈ cut s, ∀ body, e ≠ .openString body)
    (t : List Char) : cut (s ++ '\n' :: t) = cut s ++ .newline :: cut t := by
  have hcut := ((standBefore_cut s).cons_newline hopen t).cut_append
  rw [flatMap_text_cut] at hcut
  rw [hcut, cut_newline_cons]

/-- A scan is determined by its events and by the newlines of its source. -/
theorem scan_eq_of_events {a b : String} (hevents : (scan a).events = (scan b).events)
    (hcount : a.toList.count '\n' = b.toList.count '\n') : scan a = scan b := by
  have hlast : (scan a).lastLine = (scan b).lastLine := by
    rw [scan_lastLine_eq, scan_lastLine_eq, lineBehind, lineBehind, hcount]
  calc scan a = ⟨(scan a).events, (scan a).lastLine⟩ := rfl
    _ = scan b := by rw [hevents, hlast]

/-- **Scans are joined** where the first text is cut in front of the second as if it were alone. -/
theorem scan_append_eq {a b : String} (h : StandBefore (cut a.toList) b.toList) :
    scan (a ++ b) = (scan a).followedBy (a.toList.count '\n') (scan b) := by
  have hcut : cut (a ++ b).toList = cut a.toList ++ cut b.toList := by
    have hcut := h.cut_append
    rwa [flatMap_text_cut, ← String.toList_append] at hcut
  have hline : lineAfter 1 (cut a.toList) = 1 + UInt32.ofNat (a.toList.count '\n') := by
    rw [← scan_lastLine, scan_lastLine_eq, lineBehind]
  have hevents : (scan (a ++ b)).events =
      (scan a).events ++ (scan b).events.map (Event.later (a.toList.count '\n')) := by
    rw [scan_events, hcut, eventsFrom_append, scan_events, scan_events, hline, eventsFrom_add]
  have hlast : (scan (a ++ b)).lastLine =
      (scan b).lastLine + UInt32.ofNat (a.toList.count '\n') := by
    rw [scan_lastLine_eq, scan_lastLine_eq, String.toList_append, lineBehind, lineBehind,
      UInt32.add_assoc, ← UInt32.ofNat_add, List.count_append, Nat.add_comm]
  rw [Scan.followedBy, ← hevents, ← hlast]

/-- Behind a newline anything may follow. -/
theorem standBefore_behind_newline {s : List Char}
    (hopen : ∀ e ∈ cut s, ∀ body, e ≠ .openString body) (t : List Char) :
    StandBefore (cut (s ++ ['\n'])) t := by
  rw [cut_append_newline hopen, cut_nil, standBefore_append]
  exact ⟨(standBefore_cut s).cons_newline hopen t, .wellFormed trivial, trivial, trivial⟩

/-- **The scan of two lines of text** is the scan of the first, followed by that of the second. -/
theorem scan_newline_eq {a : String} (ha : Closed a) (b : String) :
    scan (a ++ "\n" ++ b) = (scan a).followedBy (1 + a.toList.count '\n') (scan b) := by
  have hline : StandBefore (cut "\n".toList) b.toList :=
    standBefore_behind_newline (s := []) (by simp) b.toList
  have hclosed : StandBefore (cut a.toList) ("\n" ++ b).toList := by
    rw [String.toList_append]
    exact (standBefore_cut a.toList).cons_newline (closed_iff.mp ha) b.toList
  have hsilent : (scan "\n").events = [] := by decide +kernel
  rw [String.append_assoc, scan_append_eq hclosed, scan_append_eq hline]
  exact Scan.followedBy_followedBy_of_silent hsilent _ _ _ _

/-! ### A blank behind a source -/

/-- A source without an open string goes on with a blank, or the blank belongs to a comment that the
source ends in. -/
theorem standBefore_blank_or {s : List Char} (hopen : ∀ e ∈ cut s, ∀ body, e ≠ .openString body)
    {c : Char} (hc : c = ' ' ∨ c = '\t' ∨ c = '\r') {t : List Char} (ht : '\n' ∉ t) :
    StandBefore (cut s) (c :: t) ∨
      ∃ es body, cut s = es ++ [.comment body] ∧
        cut (s ++ c :: t) = es ++ [.comment (body ++ c :: t)] := by
  by_cases hcomment : ∃ es body, cut s = es ++ [.comment body]
  · right
    obtain ⟨es, body, hcut⟩ := hcomment
    have hstand := standBefore_cut s
    rw [hcut] at hstand
    have hbody : '\n' ∉ body ++ c :: t := by
      have hnone : '\n' ∉ body := by
        cases (standBefore_append.mp hstand).2.1 with
        | wellFormed hwf => exact hwf
      have hnewline : '\n' ≠ c := by rcases hc with rfl | rfl | rfl <;> decide
      simp [hnone, hnewline, ht]
    have htext : s ++ c :: t = (es ++ [Element.comment (body ++ c :: t)]).flatMap Element.text := by
      rw [← flatMap_text_cut s, hcut]
      simp [Element.text]
    have hlonger : StandBefore (es ++ [.comment (body ++ c :: t)]) [] :=
      hstand.exchange_last (by decide) rfl rfl (.wellFormed hbody) (Element.endsBefore_nil hbody)
    exact ⟨es, body, hcut, htext ▸ hlonger.cut_flatMap⟩
  · left
    have hdigit : c.isDigit = false := by rcases hc with rfl | rfl | rfl <;> rfl
    have hseparator : c = ' ' ∨ c = '\t' ∨ c = '\r' ∨ c = '\n' := by
      rcases hc with h | h | h <;> simp [h]
    refine (standBefore_cut s).cons_of_last hdigit fun e he => ?_
    have hclosed := hopen e (List.mem_of_getLast? he)
    refine Element.endsBefore_separator hclosed hseparator (fun body hbody => ?_) t
    obtain ⟨es, hcut⟩ := List.getLast?_eq_some_iff.mp he
    exact absurd ⟨es, body, hbody ▸ hcut⟩ hcomment

theorem count_append_blank {c : Char} (hc : c = ' ' ∨ c = '\t' ∨ c = '\r') (s : List Char) :
    (s ++ [c]).count '\n' = s.count '\n' := by
  have hnone : [c].count '\n' = 0 := by rcases hc with rfl | rfl | rfl <;> rfl
  rw [List.count_append, hnone, Nat.add_zero]

theorem cut_singleton_blank {c : Char} (hc : c = ' ' ∨ c = '\t' ∨ c = '\r') :
    cut [c] = [.blank c] := by
  have hcut : cut ((Element.blank c).text ++ []) = .blank c :: cut [] := cut_text_append hc trivial
  rwa [cut_nil] at hcut

/-- **A blank at the end** of a closed source changes nothing. -/
theorem scan_append_blank {a : String} (ha : Closed a) {c : Char}
    (hc : c = ' ' ∨ c = '\t' ∨ c = '\r') : scan (a ++ String.singleton c) = scan a := by
  have hsource : (a ++ String.singleton c).toList = a.toList ++ [c] := by simp
  have hevents : (scan (a ++ String.singleton c)).events = (scan a).events := by
    rw [scan_events, scan_events, hsource]
    rcases standBefore_blank_or (closed_iff.mp ha) hc (List.not_mem_nil) with
      hstand | ⟨es, body, ha, hcut⟩
    · have hcut := hstand.cut_append
      rw [flatMap_text_cut, cut_singleton_blank hc] at hcut
      rw [hcut, eventsFrom_append]
      exact List.append_nil _
    · rw [hcut, ha, eventsFrom_append, eventsFrom_append]
      rfl
  exact scan_eq_of_events hevents (by rw [hsource, count_append_blank hc])

/-! ### Lines as numbers -/

/-- Tokens that are `k` lines further down stand on lines whose numbers are larger by `k`, if these
fit the counter. -/
theorem toNat_later_of_mem_tokens {source : String} {k : Nat}
    (hfit : source.toList.count '\n' + k + 1 < UInt32.size) :
    ∀ t ∈ (scan source).tokens, (t.later k).line.toNat = t.line.toNat + k := by
  intro t ht
  have hline := line_le_of_mem_tokens ht
  exact toNat_add_ofNat (by omega)

/-- So do diagnostics. -/
theorem toNat_later_of_mem_diagnostics {source : String} {k : Nat}
    (hfit : source.toList.count '\n' + k + 1 < UInt32.size) :
    ∀ d ∈ (scan source).diagnostics, (d.later k).line.toNat = d.line.toNat + k := by
  intro d hd
  have hline := line_le_of_mem_diagnostics hd
  exact toNat_add_ofNat (by omega)

/-- **Scanning composes over newlines**: behind a source that is closed, a newline begins a scan of
its own, with all its lines further down. -/
theorem scan_append_newline (a b : String) (ha : Closed a) (hfit : LinesFit (a ++ "\n" ++ b)) :
    let k := 1 + a.toList.count '\n'
    (scan (a ++ "\n" ++ b)).tokens =
        (scan a).tokens.dropLast ++ (scan b).tokens.map (Token.later k) ∧
      (scan (a ++ "\n" ++ b)).diagnostics =
        (scan a).diagnostics ++ (scan b).diagnostics.map (Diagnostic.later k) ∧
      (∀ t ∈ (scan b).tokens, (t.later k).line.toNat = t.line.toNat + k) ∧
      ∀ d ∈ (scan b).diagnostics, (d.later k).line.toNat = d.line.toNat + k := by
  intro k
  have htotal : (a ++ "\n" ++ b).toList.count '\n' = k + b.toList.count '\n' := by
    simp [k]
    omega
  rw [LinesFit, htotal, Nat.add_comm k] at hfit
  rw [scan_newline_eq ha, Scan.tokens_followedBy, Scan.diagnostics_followedBy]
  exact ⟨rfl, rfl, toNat_later_of_mem_tokens hfit, toNat_later_of_mem_diagnostics hfit⟩

/-- A numeral does not go on behind a newline, and a comment ends there. -/
theorem scan_append_newline_point :
    Closed "1. // \"" ∧ LinesFit ("1. // \"" ++ "\n" ++ "5 @ \"") ∧
      (scan ("1. // \"" ++ "\n" ++ "5 @ \"")).tokens =
        (scan "1. // \"").tokens.dropLast ++ (scan "5 @ \"").tokens.map (Token.later 1) ∧
      (scan ("1. // \"" ++ "\n" ++ "5 @ \"")).diagnostics =
        [⟨.unexpectedCharacter '@', 2⟩, ⟨.unterminatedString, 2⟩] := by
  have hclosed : Closed "1. // \"" := by decide +kernel
  have hfit : LinesFit ("1. // \"" ++ "\n" ++ "5 @ \"") := by decide +kernel
  obtain ⟨htokens, hdiagnostics, _⟩ := scan_append_newline _ _ hclosed hfit
  refine ⟨hclosed, hfit, htokens, ?_⟩
  rw [hdiagnostics]
  decide +kernel

end LoxScan
