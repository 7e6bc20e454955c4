/-
Lines are exact.

* `LinesFit` — the number of the last line fits the counter of lines;
* `toNat_lineBehind`, `LinesFit.toNat_lineBehind` — then the line behind a part of the source is one
  more than the newlines of that part;
* `placed_spec`, `placed_pairwise` — the elements stand in the source, one behind the other;
* `line_le_of_mem_tokens`, `line_le_of_mem_diagnostics` — no line of a scan is behind the last one of
  the source;
* `ExactLines` — what it means that the lines of a scan are exact;
* `scan_exactLines` — they are, for every source whose lines fit.
-/
import LoxScan.Proofs.Reading

namespace LoxScan

/-! ### The counter -/

theorem toNat_add_ofNat {line : UInt32} {k : Nat} (h : line.toNat + k < UInt32.size) :
    (line + UInt32.ofNat k).toNat = line.toNat + k := by
  have hk : (UInt32.ofNat k).toNat = k := UInt32.toNat_ofNat_of_lt' (by omega)
  rw [UInt32.toNat_add, hk]
  exact Nat.mod_eq_of_lt h

/-- The number of the last line fits into 32 bits. -/
def LinesFit (source : String) : Prop := source.toList.count '\n' + 1 < UInt32.size

instance (source : String) : Decidable (LinesFit source) := inferInstanceAs (Decidable (_ < _))

theorem lineBehind_eq_ofNat (before : List Char) :
    lineBehind before = UInt32.ofNat (1 + before.count '\n') := by
  rw [lineBehind, UInt32.ofNat_add]
  rfl

theorem toNat_lineBehind {before : List Char} (h : 1 + before.count '\n' < UInt32.size) :
    (lineBehind before).toNat = 1 + before.count '\n' := by
  rw [lineBehind_eq_ofNat, UInt32.toNat_ofNat_of_lt' h]

/-- The counter never gets ahead of the newlines, even where it starts anew. -/
theorem toNat_lineBehind_le {before source : List Char} (h : before <+: source) :
    (lineBehind before).toNat ≤ 1 + source.count '\n' := by
  have hle : before.count '\n' ≤ source.count '\n' := h.sublist.count_le _
  rw [lineBehind_eq_ofNat, UInt32.toNat_ofNat']
  exact Nat.le_trans (Nat.mod_le _ _) (Nat.add_le_add_left hle 1)

theorem LinesFit.toNat_lineBehind {source : String} (hfit : LinesFit source) {before : List Char}
    (h : before <+: source.toList) : (lineBehind before).toNat = 1 + before.count '\n' := by
  have hle : before.count '\n' ≤ source.toList.count '\n' := h.sublist.count_le _
  refine LoxScan.toNat_lineBehind ?_
  rw [LinesFit] at hfit
  omega

theorem LinesFit.lineBehind_le {source : String} (hfit : LinesFit source) {before after : List Char}
    (h : before <+: after) (hafter : after <+: source.toList) :
    lineBehind before ≤ lineBehind after := by
  have hle : before.count '\n' ≤ after.count '\n' := h.sublist.count_le _
  rw [UInt32.le_iff_toNat_le, hfit.toNat_lineBehind (h.trans hafter), hfit.toNat_lineBehind hafter]
  omega

/-- The counter after some elements of a source. -/
theorem foldl_next_line (es : List Element) :
    (es.foldl Progress.next ⟨[], 1⟩).line = lineBehind (es.flatMap Element.text) := by
  rw [foldl_next]
  exact lineAfter_lineBehind [] es

/-! ### Places -/

/-- The token that stands in the place. -/
def Placed.token? (p : Placed) : Option Token := p.event?.bind Event.token?

/-- The diagnostic of the element in the place. -/
def Placed.diagnostic? (p : Placed) : Option Diagnostic := p.event?.bind Event.diagnostic?

theorem placedFrom_spec {before s : List Char} {p : Placed} (h : p ∈ placedFrom before (cut s)) :
    ∃ c rest, p.before ++ c :: rest = before ++ s ∧ p.element = (Element.read c rest).1 := by
  induction hn : s.length using Nat.strongRecOn generalizing before s with
  | ind n ih =>
    cases s with
    | nil =>
      rw [cut_nil] at h
      exact absurd h (by simp [placedFrom])
    | cons c s =>
      have hlength := Element.length_read_le c s
      simp only [List.length_cons] at hn
      rw [cut_cons, placedFrom, List.mem_cons] at h
      rcases h with rfl | h
      · exact ⟨c, s, rfl, rfl⟩
      · obtain ⟨d, rest, hrest, helement⟩ := ih _ (by omega) h rfl
        rw [List.append_assoc, Element.text_read_append] at hrest
        exact ⟨d, rest, hrest, helement⟩

/-- **Every element is what is read** in its place in the source. -/
theorem placed_spec {source : List Char} {p : Placed} (h : p ∈ placed source) :
    ∃ c rest, p.before ++ c :: rest = source ∧ p.element = (Element.read c rest).1 :=
  placedFrom_spec h

theorem prefix_of_mem_placed {source : List Char} {p : Placed} (h : p ∈ placed source) :
    p.before ++ p.element.text <+: source := by
  obtain ⟨c, rest, hsource, helement⟩ := placed_spec h
  refine ⟨(Element.read c rest).2, ?_⟩
  rw [List.append_assoc, helement, Element.text_read_append, hsource]

theorem prefix_of_mem_placedFrom {before : List Char} {es : List Element} {p : Placed}
    (h : p ∈ placedFrom before es) : before <+: p.before := by
  induction es generalizing before with
  | nil => exact absurd h (by simp [placedFrom])
  | cons e es ih =>
    rw [placedFrom, List.mem_cons] at h
    rcases h with rfl | h
    · exact List.prefix_refl _
    · exact (List.prefix_append _ _).trans (ih h)

/-- **The elements follow each other.** -/
theorem placed_pairwise (before : List Char) (es : List Element) :
    (placedFrom before es).Pairwise fun p q => p.before ++ p.element.text <+: q.before := by
  induction es generalizing before with
  | nil => exact .nil
  | cons e es ih => exact .cons (fun q hq => prefix_of_mem_placedFrom hq) (ih _)

theorem Placed.token?_eq_some {p : Placed} {t : Token} (h : p.token? = some t) :
    ∃ g, p.element.Denotes g ∧ t = g.onLine (lineBehind p.before) := by
  rw [Placed.token?, Placed.event?] at h
  rcases p.element.denotes_or_breaks_or_silent with ⟨g, hg⟩ | ⟨f, hf⟩ | hsilent
  · rw [hg.event?] at h
    exact ⟨g, hg, (Option.some.inj h).symm⟩
  · rw [hf.event?] at h
    exact absurd h (by simp [Event.token?])
  · rw [hsilent.event?] at h
    exact absurd h (by simp)

theorem Placed.diagnostic?_eq_some {p : Placed} {d : Diagnostic} (h : p.diagnostic? = some d) :
    p.element.Breaks d.fault ∧ d.line = lineBehind (p.before ++ p.element.text) := by
  rw [Placed.diagnostic?, Placed.event?] at h
  rcases p.element.denotes_or_breaks_or_silent with ⟨g, hg⟩ | ⟨f, hf⟩ | hsilent
  · rw [hg.event?] at h
    exact absurd h (by simp [Event.diagnostic?])
  · rw [hf.event?, ← lineBehind_append] at h
    cases h
    exact ⟨hf, rfl⟩
  · rw [hsilent.event?] at h
    exact absurd h (by simp)

/-- An open string reaches to the end of the source. -/
theorem Placed.openString_reaches {source : List Char} {p : Placed} (h : p ∈ placed source)
    {body : List Char} (hopen : p.element = .openString body) :
    p.before ++ p.element.text = source := by
  obtain ⟨c, rest, hsource, helement⟩ := placed_spec h
  have hend := Element.endsBefore_read c rest
  have hsplit := Element.text_read_append c rest
  rw [← helement, hopen] at hend
  have hnil : (Element.read c rest).2 = [] := hend
  rw [hnil, List.append_nil, ← helement] at hsplit
  rw [hsplit, hsource]

/-- A stray character is no newline. -/
theorem Placed.stray_ne_newline {source : List Char} {p : Placed} (h : p ∈ placed source) {c : Char}
    (hstray : p.element = .stray c) : c ≠ '\n' := by
  obtain ⟨d, rest, _, helement⟩ := placed_spec h
  rintro rfl
  have hfault : (Element.read d rest).1.fault?.isSome = true := by
    rw [← helement, hstray]
    rfl
  have hread := Element.text_read_append d rest
  rw [← helement, hstray] at hread
  have hd : d = '\n' := (List.cons.inj hread).1.symm
  rw [hd] at hfault
  exact Element.unmatched_of_fault hfault .newline trivial ⟨rest, rfl⟩

/-! ### The lines of a scan -/

/-- The lines of a scan are exact. -/
structure ExactLines (source : String) : Prop where
  /-- Before an element, the counter is one more than the newlines so far, and it has room for those
  of the element. -/
  counter : ∀ done e todo, cut source.toList = done ++ e :: todo →
    (done.foldl Progress.next ⟨[], 1⟩).line.toNat = 1 + (done.flatMap Element.text).count '\n' ∧
      (done.foldl Progress.next ⟨[], 1⟩).line.toNat + e.newlines < UInt32.size
  /-- The tokens are those of the places, in order, and then the end of the input. -/
  tokens_eq : (scan source).tokens =
    (placed source.toList).filterMap Placed.token? ++ [Token.endOfInput (scan source).lastLine]
  /-- The diagnostics are those of the places, in order. -/
  diagnostics_eq : (scan source).diagnostics = (placed source.toList).filterMap Placed.diagnostic?
  /-- A token has its lexeme in its place, and the line of the first character of it. -/
  token_line : ∀ p ∈ placed source.toList, ∀ t, p.token? = some t →
    p.before ++ t.lexeme.toList <+: source.toList ∧ t.line.toNat = 1 + p.before.count '\n'
  /-- A stray character is reported on the line of its place. -/
  stray_line : ∀ p ∈ placed source.toList, ∀ c line,
    p.diagnostic? = some ⟨.unexpectedCharacter c, line⟩ →
      p.before ++ [c] <+: source.toList ∧ line.toNat = 1 + p.before.count '\n'
  /-- An open string is reported on the last line. -/
  open_line : ∀ line, ⟨.unterminatedString, line⟩ ∈ (scan source).diagnostics →
    line.toNat = 1 + source.toList.count '\n'
  /-- The end of the input stands on the last line. -/
  last_line : (scan source).lastLine.toNat = 1 + source.toList.count '\n'
  /-- The lines of the tokens never decrease. -/
  tokens_sorted : (scan source).tokens.Pairwise fun s t => s.line ≤ t.line
  /-- The lines of the diagnostics never decrease. -/
  diagnostics_sorted : (scan source).diagnostics.Pairwise fun d e => d.line ≤ e.line
  /-- An open string is the last diagnostic, on the line of the end of the input. -/
  open_last : ∀ ds d es, (scan source).diagnostics = ds ++ d :: es →
    d.fault = .unterminatedString → es = [] ∧ d.line = (scan source).lastLine

theorem scan_tokens_eq_placed (source : String) :
    (scan source).tokens =
      (placed source.toList).filterMap Placed.token? ++
        [Token.endOfInput (scan source).lastLine] := by
  rw [Scan.tokens, scan_events_eq_placed, List.filterMap_filterMap]
  rfl

theorem scan_diagnostics_eq_placed (source : String) :
    (scan source).diagnostics = (placed source.toList).filterMap Placed.diagnostic? := by
  rw [Scan.diagnostics, scan_events_eq_placed, List.filterMap_filterMap]
  rfl

/-- Every diagnostic of a scan is that of an element of the source. -/
theorem exists_placed_of_mem_diagnostics {source : String} {d : Diagnostic}
    (h : d ∈ (scan source).diagnostics) :
    ∃ p ∈ placed source.toList,
      p.element.Breaks d.fault ∧ d.line = lineBehind (p.before ++ p.element.text) := by
  rw [scan_diagnostics_eq_placed] at h
  obtain ⟨p, hp, hpd⟩ := List.mem_filterMap.mp h
  exact ⟨p, hp, Placed.diagnostic?_eq_some hpd⟩

/-- A scan counts no more lines than the source has. -/
theorem line_le_of_mem_diagnostics {source : String} {d : Diagnostic}
    (h : d ∈ (scan source).diagnostics) : d.line.toNat ≤ 1 + source.toList.count '\n' := by
  obtain ⟨p, hp, _, hline⟩ := exists_placed_of_mem_diagnostics h
  rw [hline]
  exact toNat_lineBehind_le (prefix_of_mem_placed hp)

/-- So it is for the tokens, and for the end of the input. -/
theorem line_le_of_mem_tokens {source : String} {t : Token} (h : t ∈ (scan source).tokens) :
    t.line.toNat ≤ 1 + source.toList.count '\n' := by
  rw [scan_tokens_eq_placed, scan_lastLine_eq, List.mem_append, List.mem_singleton] at h
  rcases h with h | rfl
  · obtain ⟨p, hp, hpt⟩ := List.mem_filterMap.mp h
    obtain ⟨g, _, rfl⟩ := Placed.token?_eq_some hpt
    exact toNat_lineBehind_le ((List.prefix_append _ _).trans (prefix_of_mem_placed hp))
  · exact toNat_lineBehind_le (List.prefix_refl _)

/-- No scan reports a numeral that cannot be read. -/
theorem fault_ne_unreadableNumber {source : String} {d : Diagnostic}
    (h : d ∈ (scan source).diagnostics) (text : String) : d.fault ≠ .unreadableNumber text := by
  obtain ⟨p, _, hbreaks, _⟩ := exists_placed_of_mem_diagnostics h
  intro hfault
  rw [hfault] at hbreaks
  generalize p.element = e at hbreaks
  cases hbreaks

section

variable {source : String} (hfit : LinesFit source)

include hfit

theorem LinesFit.counter {done : List Element} {e : Element} {todo : List Element}
    (h : cut source.toList = done ++ e :: todo) :
    (done.foldl Progress.next ⟨[], 1⟩).line.toNat = 1 + (done.flatMap Element.text).count '\n' ∧
      (done.foldl Progress.next ⟨[], 1⟩).line.toNat + e.newlines < UInt32.size := by
  have hsource := flatMap_text_cut source.toList
  rw [h, List.flatMap_append, List.flatMap_cons] at hsource
  have hline := hfit.toNat_lineBehind ⟨_, hsource⟩
  rw [foldl_next_line]
  refine ⟨hline, ?_⟩
  have hcount := congrArg (List.count '\n') hsource
  rw [List.count_append, List.count_append] at hcount
  have hnewlines : e.newlines = e.text.count '\n' := rfl
  rw [LinesFit] at hfit
  omega

/-- A part of the source that is followed by an element ends no later than the place behind it. -/
theorem LinesFit.lineBehind_le_placed {p q : Placed} (hq : q ∈ placed source.toList)
    (h : p.before ++ p.element.text <+: q.before) :
    lineBehind p.before ≤ lineBehind q.before ∧
      lineBehind (p.before ++ p.element.text) ≤ lineBehind (q.before ++ q.element.text) := by
  have hbehind := prefix_of_mem_placed hq
  have hbefore : q.before <+: source.toList := (List.prefix_append _ _).trans hbehind
  refine ⟨hfit.lineBehind_le ((List.prefix_append _ _).trans h) hbefore, ?_⟩
  exact hfit.lineBehind_le (h.trans (List.prefix_append _ _)) hbehind

theorem LinesFit.tokens_sorted : (scan source).tokens.Pairwise fun s t => s.line ≤ t.line := by
  rw [scan_tokens_eq_placed, List.pairwise_append]
  refine ⟨?_, by simp, ?_⟩
  · rw [List.pairwise_filterMap]
    refine (placed_pairwise [] _).imp_of_mem fun {p q} _ hq hpq s hs t ht => ?_
    obtain ⟨g, _, rfl⟩ := Placed.token?_eq_some hs
    obtain ⟨h, _, rfl⟩ := Placed.token?_eq_some ht
    exact (hfit.lineBehind_le_placed hq hpq).1
  · intro s hs t ht
    obtain ⟨p, hp, hps⟩ := List.mem_filterMap.mp hs
    obtain ⟨g, _, rfl⟩ := Placed.token?_eq_some hps
    rw [List.mem_singleton.mp ht, scan_lastLine_eq]
    have hplace := (List.prefix_append _ _).trans (prefix_of_mem_placed hp)
    exact hfit.lineBehind_le hplace (List.prefix_refl _)

theorem LinesFit.diagnostics_sorted :
    (scan source).diagnostics.Pairwise fun d e => d.line ≤ e.line := by
  rw [scan_diagnostics_eq_placed, List.pairwise_filterMap]
  refine (placed_pairwise [] _).imp_of_mem fun {p q} _ hq hpq d hd e he => ?_
  rw [(Placed.diagnostic?_eq_some hd).2, (Placed.diagnostic?_eq_some he).2]
  exact (hfit.lineBehind_le_placed hq hpq).2

end

/-- An open string is reported on the last line. -/
theorem line_of_unterminated {source : String} {d : Diagnostic}
    (h : d ∈ (scan source).diagnostics) (hfault : d.fault = .unterminatedString) :
    d.line = lineBehind source.toList := by
  obtain ⟨p, hp, hbreaks, hline⟩ := exists_placed_of_mem_diagnostics h
  rw [hfault] at hbreaks
  obtain ⟨body, hopen⟩ := hbreaks.eq_openString
  rw [hline, Placed.openString_reaches hp hopen]

/-- No diagnostic follows that of an open string. -/
theorem unterminated_pairwise (source : String) :
    (scan source).diagnostics.Pairwise fun d _ => d.fault ≠ .unterminatedString := by
  rw [scan_diagnostics_eq_placed, List.pairwise_filterMap]
  refine (placed_pairwise [] _).imp_of_mem fun {p q} hp hq hpq d hd e he hfault => ?_
  have hbreaks := (Placed.diagnostic?_eq_some hd).1
  rw [hfault] at hbreaks
  obtain ⟨body, hopen⟩ := hbreaks.eq_openString
  -- the open string takes the whole rest, so nothing is left for a second element
  rw [Placed.openString_reaches hp hopen] at hpq
  have hlength := hpq.length_le
  have hsource := (prefix_of_mem_placed hq).length_le
  rw [List.length_append] at hsource
  have hpositive := List.length_pos_iff.mpr (Placed.diagnostic?_eq_some he).1.text_ne_nil
  omega

/-- **Lines are exact** in every source whose lines fit the counter. -/
theorem scan_exactLines (source : String) (hfit : LinesFit source) : ExactLines source where
  counter _ _ _ h := hfit.counter h
  tokens_eq := scan_tokens_eq_placed source
  diagnostics_eq := scan_diagnostics_eq_placed source
  token_line := by
    intro p hp t ht
    obtain ⟨g, hg, rfl⟩ := Placed.token?_eq_some ht
    have hplace := prefix_of_mem_placed hp
    have hlexeme : (g.onLine (lineBehind p.before)).lexeme.toList = p.element.text := by
      rw [Sign.onLine, String.toList_ofList, hg.lexeme_eq]
    rw [hlexeme]
    exact ⟨hplace, hfit.toNat_lineBehind ((List.prefix_append _ _).trans hplace)⟩
  stray_line := by
    intro p hp c line hd
    obtain ⟨hbreaks, hline⟩ := Placed.diagnostic?_eq_some hd
    have hstray : p.element = .stray c := hbreaks.eq_stray
    have hplace := prefix_of_mem_placed hp
    have htoNat := hfit.toNat_lineBehind hplace
    rw [← show line = _ from hline] at htoNat
    rw [hstray] at hplace htoNat
    -- the line is that behind the character, which is no newline
    have hcount : [c].count '\n' = 0 := by simp [Placed.stray_ne_newline hp hstray]
    rw [List.count_append, show (Element.stray c).text = [c] from rfl, hcount] at htoNat
    exact ⟨hplace, htoNat⟩
  open_line := by
    intro line h
    rw [show line = _ from line_of_unterminated h rfl]
    exact hfit.toNat_lineBehind (List.prefix_refl _)
  last_line := by
    rw [scan_lastLine_eq]
    exact hfit.toNat_lineBehind (List.prefix_refl _)
  tokens_sorted := hfit.tokens_sorted
  diagnostics_sorted := hfit.diagnostics_sorted
  open_last := by
    intro ds d es hsplit hfault
    have hpairwise := unterminated_pairwise source
    rw [hsplit, List.pairwise_append, List.pairwise_cons] at hpairwise
    obtain ⟨_, ⟨hlater, _⟩, _⟩ := hpairwise
    constructor
    · exact List.eq_nil_iff_forall_not_mem.mpr fun e he => hlater e he hfault
    · rw [line_of_unterminated (by rw [hsplit]; simp) hfault, scan_lastLine_eq]

/-- A string over two lines, and what follows it. -/
theorem exactLines_of_two_line_string :
    LinesFit "x \"a\nb\" // c\n@ \"d\n" ∧ ExactLines "x \"a\nb\" // c\n@ \"d\n" := by
  have hfit : LinesFit "x \"a\nb\" // c\n@ \"d\n" := by decide +kernel
  exact ⟨hfit, scan_exactLines _ hfit⟩

end LoxScan
