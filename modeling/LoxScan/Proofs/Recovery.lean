/-
Stray characters are reported and have no other effect.

* `unexpectedPositions`, `mended` — where a scan reports unexpected characters, and the source with
  a space in place of each of them;
* `Element.mended`, `toList_mended` — the spaces take the place of the stray elements;
* `cut_mended` — the elements of the mended source are those of the source, with blanks in place of
  the stray ones;
* `lead_ne_stray_of_mem_tokens` — no token begins with a character that begins nothing;
* `Isolated` — what it means that stray characters have no effect but their diagnostics;
* `scan_isolated` — they have none, in any source.

Design notes: an element in front of a stray character ends there, and it ends in front of a space
as well.  An element further away could see the space only behind a point, but neither a space nor a
stray character is a digit.
-/
import Mathlib.Data.List.Forall2
import LoxScan.Proofs.Concatenation
import LoxScan.Proofs.Rows
import LoxScan.Proofs.Transcript

namespace LoxScan

/-! ### Mending a source -/

/-- The event is about a character that begins nothing. -/
def Event.isUnexpected (e : Event) : Bool := e.diagnostic?.any fun d => d.fault.isUnexpected

/-- The positions at which a scan reports an unexpected character. -/
def unexpectedPositions (source : String) : List Nat :=
  ((findings source).filter fun f => f.event.isUnexpected).map Finding.position

/-- The source with a space in place of each character that a scan of it reports as unexpected. -/
def mended (source : String) : String :=
  String.ofList (source.toList.mapIdx fun i c => if i ∈ unexpectedPositions source then ' ' else c)

/-- Whether the element is a character that begins nothing. -/
def Element.isStray : Element → Bool
  | stray _ => true
  | _ => false

/-- The element, or a space in place of a stray character. -/
def Element.mended : Element → Element
  | stray _ => blank ' '
  | e => e

/-- The text with a space in place of each stray element. -/
def mendedText (s : List Char) : List Char := (cut s).flatMap fun e => e.mended.text

/-- The positions of the stray elements. -/
def strayPositions (ps : List Placed) : List Nat :=
  (ps.filter fun p => p.element.isStray).map fun p => p.before.length

theorem Element.any_event? (e : Element) (line : UInt32) :
    (e.event? line).any Event.isUnexpected = e.isStray := by
  cases e <;> rfl

/-- **What is reported as unexpected** are the stray elements. -/
theorem unexpectedPositions_eq (source : String) :
    unexpectedPositions source = strayPositions (placed source.toList) := by
  rw [unexpectedPositions, findings, strayPositions]
  induction placed source.toList with
  | nil => rfl
  | cons p ps ih =>
    have hstray : p.event?.any Event.isUnexpected = p.element.isStray := p.element.any_event? _
    cases hevent : p.event? with
    | none =>
      have hnone : p.finding? = none := by rw [Placed.finding?, hevent, Option.map_none]
      rw [hevent, Option.any_none] at hstray
      rw [List.filterMap_cons_none hnone, List.filter_cons_of_neg (by simp [← hstray]), ih]
    | some event =>
      have hsome : p.finding? = some ⟨p.before.length, event⟩ := by
        rw [Placed.finding?, hevent, Option.map_some]
      rw [hevent, Option.any_some] at hstray
      rw [List.filterMap_cons_some hsome, List.filter_cons, List.filter_cons, hstray]
      split
      · rw [List.map_cons, List.map_cons, ih]
      · exact ih

theorem length_le_of_mem_strayPositions {before : List Char} {es : List Element} {n : Nat}
    (h : n ∈ strayPositions (placedFrom before es)) : before.length ≤ n := by
  obtain ⟨p, hp, rfl⟩ := List.mem_map.mp h
  exact (prefix_of_mem_placedFrom (List.mem_filter.mp hp).1).length_le

theorem strayPositions_cons (p : Placed) (ps : List Placed) :
    strayPositions (p :: ps) =
      if p.element.isStray then p.before.length :: strayPositions ps else strayPositions ps := by
  rw [strayPositions, List.filter_cons]
  split
  · rfl
  · rfl

theorem Element.length_text_of_isStray {e : Element} (h : e.isStray = true) :
    e.text.length = 1 := by
  cases e with
  | stray c => rfl
  | _ => exact absurd h (by simp [isStray])

theorem Element.text_mended (e : Element) :
    e.mended.text = e.text.map fun c => if e.isStray then ' ' else c := by
  cases e <;> simp [mended, isStray, text]

/-- At the positions of an element there is a stray character only if the element is one. -/
theorem mem_strayPositions_first (before : List Char) {e : Element} (es : List Element) {i : Nat}
    (hi : i < e.text.length) :
    before.length + i ∈ strayPositions (placedFrom before (e :: es)) ↔ e.isStray = true := by
  have hlater : before.length + i ∉ strayPositions (placedFrom (before ++ e.text) es) := by
    intro h
    have hle := length_le_of_mem_strayPositions h
    rw [List.length_append] at hle
    omega
  rw [placedFrom, strayPositions_cons]
  constructor
  · intro h
    split at h
    · assumption
    · exact absurd h hlater
  · intro h
    have hone := Element.length_text_of_isStray h
    obtain rfl : i = 0 := by omega
    rw [if_pos h]
    exact List.mem_cons_self

/-- Behind the first element, the stray characters are those of the others. -/
theorem mem_strayPositions_later (before : List Char) (e : Element) (es : List Element) (i : Nat) :
    before.length + (i + e.text.length) ∈ strayPositions (placedFrom before (e :: es)) ↔
      (before ++ e.text).length + i ∈ strayPositions (placedFrom (before ++ e.text) es) := by
  have hindex : before.length + (i + e.text.length) = (before ++ e.text).length + i := by
    rw [List.length_append]
    omega
  rw [hindex, placedFrom, strayPositions_cons]
  split
  · next h =>
    have hone : e.text.length = 1 := Element.length_text_of_isStray h
    have hne : (before ++ e.text).length + i ≠ before.length := by
      rw [List.length_append]
      omega
    rw [List.mem_cons, or_iff_right hne]
  · exact Iff.rfl

/-- Spaces at the positions of stray elements take the place of these elements. -/
theorem mapIdx_strayPositions (before : List Char) (es : List Element) :
    ((es.flatMap Element.text).mapIdx fun i c =>
      if before.length + i ∈ strayPositions (placedFrom before es) then ' ' else c) =
      es.flatMap fun e => e.mended.text := by
  induction es generalizing before with
  | nil => rfl
  | cons e es ih =>
    rw [List.flatMap_cons, List.flatMap_cons, List.mapIdx_append, ← ih (before ++ e.text),
      Element.text_mended]
    simp only [mem_strayPositions_later]
    congr 1
    refine List.ext_getElem (by simp) fun i hi _ => ?_
    have hi : i < e.text.length := by simpa using hi
    simp only [List.getElem_mapIdx, List.getElem_map, mem_strayPositions_first before es hi]

/-- **A mended source** has spaces in place of its stray elements. -/
theorem toList_mended (source : String) : (mended source).toList = mendedText source.toList := by
  have hspaces := mapIdx_strayPositions [] (cut source.toList)
  simp only [flatMap_text_cut, List.length_nil, Nat.zero_add] at hspaces
  rw [mended, String.toList_ofList, unexpectedPositions_eq, mendedText, ← hspaces]
  rfl

/-! ### The elements of a mended source -/

/-- The second character is the first one, or it is a space in place of a stray character. -/
def MendedTo (c d : Char) : Prop := d = c ∨ Lead.of c = .stray ∧ d = ' '

theorem mendedText_nil : mendedText [] = [] := by
  rw [mendedText, cut_nil]
  rfl

theorem mendedText_text_append {e : Element} {rest : List Char} (hread : e.Readable)
    (hend : e.EndsBefore rest) :
    mendedText (e.text ++ rest) = e.mended.text ++ mendedText rest := by
  rw [mendedText, cut_text_append_of_readable hread hend, List.flatMap_cons, mendedText]

/-- Mending changes stray characters only, and puts spaces in their place. -/
theorem forall₂_mendedText (s : List Char) : List.Forall₂ MendedTo s (mendedText s) := by
  induction s using cut_induction with
  | nil =>
    rw [mendedText_nil]
    exact .nil
  | element e rest hread hend ih =>
    rw [mendedText_text_append hread hend]
    refine List.rel_append ?_ (ih rest (List.suffix_refl rest))
    cases e with
    | stray c => exact .cons (Or.inr ⟨hread.lead_of_stray, rfl⟩) .nil
    | _ => exact List.forall₂_same.mpr fun c _ => Or.inl rfl

theorem isDigit_of_mendedTo {c d : Char} (h : MendedTo c d) : d.isDigit = c.isDigit := by
  rcases h with rfl | ⟨hstray, rfl⟩
  · rfl
  · have hdigit : c.isDigit ≠ true := by
      rw [ne_eq, ← Lead.of_eq_digit_iff, hstray]
      simp
    simpa using hdigit

/-- **An element ends where it ended** when the text behind it is mended. -/
theorem Element.EndsBefore.mended {e : Element} {s t : List Char} (hend : e.EndsBefore s)
    (h : List.Forall₂ MendedTo s t) : e.EndsBefore t := by
  cases h with
  | nil => exact hend
  | @cons c d s t hcd hst =>
    rcases hcd with rfl | ⟨hstray, rfl⟩
    · -- the second character counts only behind a point, and only as a digit
      have hpoint : BeginsFraction (d :: s) ↔ BeginsFraction (d :: t) := by
        cases hst with
        | nil => exact Iff.rfl
        | cons hbd _ =>
          rw [beginsFraction_cons_cons, beginsFraction_cons_cons, isDigit_of_mendedTo hbd]
      exact (endsBefore_congr (by rfl) hpoint).mp hend
    · refine endsBefore_separator ?_ (Or.inl rfl) ?_ t
      · rintro body rfl
        exact absurd hend (by simp [EndsBefore])
      · rintro body rfl
        obtain rfl : c = '\n' := hend c rfl
        exact absurd hstray (by decide)

theorem Element.Readable.mended {e : Element} (h : e.Readable) : e.mended.Readable := by
  cases e with
  | stray c =>
    have hblank : (Element.blank ' ').WellFormed := Or.inl rfl
    exact .wellFormed hblank
  | _ => exact h

theorem Element.EndsBefore.mended_mendedText {e : Element} {rest : List Char}
    (hend : e.EndsBefore rest) : e.mended.EndsBefore (mendedText rest) := by
  cases e with
  | stray c => trivial
  | _ => exact hend.mended (forall₂_mendedText rest)

/-- **The elements of a mended text** are those of the text, with blanks in place of the stray
ones. -/
theorem cut_mendedText (s : List Char) : cut (mendedText s) = (cut s).map Element.mended := by
  induction s using cut_induction with
  | nil => rw [mendedText_nil, cut_nil, List.map_nil]
  | element e rest hread hend ih =>
    rw [mendedText_text_append hread hend,
      cut_text_append_of_readable hread.mended hend.mended_mendedText,
      cut_text_append_of_readable hread hend, ih rest (List.suffix_refl rest), List.map_cons]

/-! ### The scan of a mended source -/

theorem Element.event?_mended (e : Element) (line : UInt32) :
    e.mended.event? line = (e.event? line).filter fun event => !event.isUnexpected := by
  cases e <;> rfl

/-- Neither a stray character nor a space is a newline. -/
theorem Element.Readable.newlines_mended {e : Element} (h : e.Readable) :
    e.mended.newlines = e.newlines := by
  cases e with
  | stray c =>
    have hne : c ≠ '\n' := by
      rintro rfl
      exact absurd h.lead_of_stray (by decide)
    simp [Element.mended, newlines, text, hne]
  | _ => rfl

/-- **Only the diagnostics of stray characters are gone.** -/
theorem eventsFrom_mended {s : List Char} {es : List Element} (h : StandBefore es s)
    (line : UInt32) : eventsFrom line (es.map Element.mended) =
      (eventsFrom line es).filter fun event => !event.isUnexpected := by
  induction es generalizing line with
  | nil => rfl
  | cons e es ih =>
    obtain ⟨hread, _, hes⟩ := h
    rw [List.map_cons, eventsFrom, eventsFrom, List.filter_append, hread.newlines_mended, ih hes,
      Element.event?_mended, Option.toList_filter]

/-- The lines are counted as before. -/
theorem lineAfter_mended {s : List Char} {es : List Element} (h : StandBefore es s)
    (line : UInt32) : lineAfter line (es.map Element.mended) = lineAfter line es := by
  induction es generalizing line with
  | nil => rfl
  | cons e es ih =>
    obtain ⟨hread, _, hes⟩ := h
    rw [List.map_cons, lineAfter, lineAfter, hread.newlines_mended, ih hes]

theorem scan_mended_events (source : String) :
    (scan (mended source)).events =
      (scan source).events.filter fun event => !event.isUnexpected := by
  rw [scan_events, scan_events, toList_mended, cut_mendedText,
    eventsFrom_mended (standBefore_cut source.toList)]

theorem scan_mended_lastLine (source : String) :
    (scan (mended source)).lastLine = (scan source).lastLine := by
  rw [scan_lastLine, scan_lastLine, toList_mended, cut_mendedText,
    lineAfter_mended (standBefore_cut source.toList)]

theorem scan_mended_tokens (source : String) :
    (scan (mended source)).tokens = (scan source).tokens := by
  have htoken : ∀ event : Event,
      (if (!event.isUnexpected) = true then event.token? else none) = event.token? := by
    intro event
    cases event with
    | token t => rfl
    | fault d => exact ite_self none
  rw [Scan.tokens, Scan.tokens, scan_mended_events, scan_mended_lastLine, List.filterMap_filter]
  simp only [htoken]

theorem scan_mended_diagnostics (source : String) :
    (scan (mended source)).diagnostics =
      (scan source).diagnostics.filter fun d => !d.fault.isUnexpected := by
  have hdiagnostic : ∀ event : Event,
      (if (!event.isUnexpected) = true then event.diagnostic? else none) =
        event.diagnostic?.filter fun d => !d.fault.isUnexpected := by
    intro event
    cases event with
    | token t => rfl
    | fault d => simp [Event.isUnexpected, Event.diagnostic?, Option.filter]
  rw [Scan.diagnostics, Scan.diagnostics, scan_mended_events, List.filterMap_filter,
    List.filter_filterMap]
  simp only [hdiagnostic]

/-! ### What is reported -/

/-- A scan reports nothing but open strings and stray characters. -/
theorem fault_of_mem_diagnostics {source : String} {d : Diagnostic}
    (h : d ∈ (scan source).diagnostics) :
    d.fault = .unterminatedString ∨ ∃ c, d.fault = .unexpectedCharacter c ∧ Lead.of c = .stray := by
  obtain ⟨p, hp, hbreaks, _⟩ := exists_placed_of_mem_diagnostics h
  obtain ⟨b, rest, _, helement⟩ := placed_spec hp
  have hread : p.element.Readable := by
    rw [helement]
    exact Element.readable_read b rest
  generalize d.fault = fault, p.element = e at hbreaks hread
  cases hbreaks with
  | openString body => exact Or.inl rfl
  | stray c => exact Or.inr ⟨c, rfl, hread.lead_of_stray⟩

/-- Without the stray characters, an open string is left, or nothing. -/
theorem filter_diagnostics_cases (source : String) :
    let others := (scan source).diagnostics.filter fun d => !d.fault.isUnexpected
    others = [] ∨ others = [⟨.unterminatedString, (scan source).lastLine⟩] := by
  intro others
  have hopen : ∀ d ∈ others, d = ⟨.unterminatedString, (scan source).lastLine⟩ := by
    intro d hd
    obtain ⟨hmem, hother⟩ := List.mem_filter.mp hd
    rcases fault_of_mem_diagnostics hmem with hfault | ⟨c, hfault, _⟩
    · have hline := line_of_unterminated hmem hfault
      rw [← scan_lastLine_eq] at hline
      rw [← hfault, ← hline]
    · rw [hfault] at hother
      exact absurd hother (by simp [Fault.isUnexpected])
  have hlast := (unterminated_pairwise source).filter fun d => !d.fault.isUnexpected
  change others.Pairwise _ at hlast
  rcases others with _ | ⟨d, ds⟩
  · exact Or.inl rfl
  · obtain rfl := hopen d List.mem_cons_self
    have hnil : ds = [] := by
      refine List.eq_nil_iff_forall_not_mem.mpr fun e he => ?_
      -- nothing follows the diagnostic of an open string
      exact (List.pairwise_cons.mp hlast).1 e he rfl
    exact Or.inr (by rw [hnil])

/-- An unexpected character stands where it is found. -/
theorem getElem?_of_unexpected {source : String} {f : Finding} (hf : f ∈ findings source) {c : Char}
    {line : UInt32} (hevent : f.event = .fault ⟨.unexpectedCharacter c, line⟩) :
    source.toList[f.position]? = some c := by
  have hheads := heads_of_mem_findings hf
  rw [hevent] at hheads
  rw [← List.head?_drop]
  generalize source.toList.drop f.position = rest at hheads
  cases hheads
  rfl

/-- **No token begins** with a character that begins nothing. -/
theorem lead_ne_stray_of_mem_tokens {source : String} {t : Token} (h : t ∈ (scan source).tokens)
    {c : Char} (hc : t.lexeme.toList.head? = some c) : Lead.of c ≠ .stray := by
  have hscanned := scanned_of_mem_signs (List.mem_map_of_mem h)
  change t.sign.lexeme.head? = some c at hc
  rcases hscanned with hwf | hend
  · obtain ⟨b, s, htext, hlead⟩ := hwf.lexeme_eq_cons
    rw [htext] at hc
    obtain rfl : b = c := Option.some.inj hc
    rw [hlead]
    rw [Sign.WellFormed] at hwf
    cases hkind : t.sign.kind with
    | endOfInput =>
      rw [hkind] at hwf
      exact hwf.elim
    | _ => simp [Kind.lead]
  · rw [hend] at hc
    exact absurd hc (by simp [Sign.endOfInput])

/-! ### Isolation -/

/-- Stray characters have no effect but their diagnostics. -/
structure Isolated (source : String) : Prop where
  /-- The diagnostics of the source are among the findings. -/
  diagnostics_eq : (scan source).diagnostics = (findings source).filterMap (·.event.diagnostic?)
  /-- An unexpected character stands where it is found. -/
  stands : ∀ f ∈ findings source, ∀ c line, f.event = .fault ⟨.unexpectedCharacter c, line⟩ →
    source.toList[f.position]? = some c
  /-- Spaces in their place leave the tokens as they are. -/
  tokens_kept : (scan (mended source)).tokens = (scan source).tokens
  /-- The other diagnostics are left. -/
  diagnostics_left : (scan (mended source)).diagnostics =
    (scan source).diagnostics.filter fun d => !d.fault.isUnexpected
  /-- There is at most one, that of an open string. -/
  at_most_open : (scan (mended source)).diagnostics = [] ∨
    (scan (mended source)).diagnostics = [⟨.unterminatedString, (scan source).lastLine⟩]
  /-- No token of any source begins with a character that is unexpected in this one. -/
  begins_nothing : ∀ d ∈ (scan source).diagnostics, ∀ c, d.fault = .unexpectedCharacter c →
    ∀ other, ∀ t ∈ (scan other).tokens, t.lexeme.toList.head? ≠ some c

/-- **Stray characters are isolated** in every source. -/
theorem scan_isolated (source : String) : Isolated source where
  diagnostics_eq := by rw [filterMap_findings, Scan.diagnostics]
  stands _ hf _ _ hevent := getElem?_of_unexpected hf hevent
  tokens_kept := scan_mended_tokens source
  diagnostics_left := scan_mended_diagnostics source
  at_most_open := by
    rw [scan_mended_diagnostics]
    exact filter_diagnostics_cases source
  begins_nothing := by
    intro d hd c hfault other t ht hhead
    rcases fault_of_mem_diagnostics hd with hopen | ⟨b, hstray, hlead⟩
    · rw [hfault] at hopen
      exact absurd hopen (by simp)
    · rw [hfault] at hstray
      cases hstray
      exact lead_ne_stray_of_mem_tokens ht hhead hlead

-- Of the two number signs only the one outside of the string gives way to a space.
example : mended "1.#5 \"#" = "1. 5 \"#" := by decide +kernel

end LoxScan
