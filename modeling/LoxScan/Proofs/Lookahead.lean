/-
A scan is local: what it has read ends no more than two characters ahead of what it has decided.

* `mem_placed_iff` — an element stands in a place if it is readable there behind readable elements;
* `mem_placed_of_stop`, `mem_placed_of_stray` — an element that ends two characters before the end of
  a text stands there however the text goes on, and so does a stray character of the text;
* `tokensWithin`, `unexpectedWithin` — the tokens and the unexpected characters that end within the
  first characters of a source;
* `scan_lookahead` — they depend on two characters more.

Design notes: places are ordered by where they begin, so two lists of places are equal if they have
the same members.  This leaves one place to look at, and nothing to say about where two scans of
different texts part.
-/
import Mathlib.Data.List.Basic
import LoxScan.Proofs.Continuation
import LoxScan.Proofs.Lines

namespace LoxScan

variable {α : Type}

/-! ### Places -/

/-- Where the element ends, counted in characters of the source. -/
def Placed.stop (q : Placed) : Nat := q.before.length + q.element.text.length

theorem mem_placedFrom_iff {before : List Char} {es : List Element} {q : Placed} :
    q ∈ placedFrom before es ↔
      ∃ done todo, es = done ++ q.element :: todo ∧
        q.before = before ++ done.flatMap Element.text := by
  induction es generalizing before with
  | nil => simp [placedFrom]
  | cons e es ih =>
    rw [placedFrom, List.mem_cons, ih]
    constructor
    · rintro (rfl | ⟨done, todo, rfl, hbefore⟩)
      · exact ⟨[], es, rfl, by simp⟩
      · exact ⟨e :: done, todo, rfl, by simp [hbefore]⟩
    · rintro ⟨done, todo, heq, hbefore⟩
      cases done with
      | nil =>
        obtain ⟨rfl, rfl⟩ := List.cons.inj heq
        have hplace : q.before = before := by simpa using hbefore
        left
        rw [← hplace]
      | cons d done =>
        obtain ⟨rfl, rfl⟩ := List.cons.inj heq
        exact Or.inr ⟨done, todo, rfl, by simp [hbefore]⟩

/-- **An element stands in a place** just when it and the elements before it are read in front of
the rest of the source. -/
theorem mem_placed_iff {s : List Char} {q : Placed} :
    q ∈ placed s ↔
      ∃ done rest, StandBefore (done ++ [q.element]) rest ∧
        q.before = done.flatMap Element.text ∧ s = q.before ++ q.element.text ++ rest := by
  rw [placed, mem_placedFrom_iff]
  constructor
  · rintro ⟨done, todo, hcut, hbefore⟩
    have hsplit : cut s = (done ++ [q.element]) ++ todo := by simp [hcut]
    have htext := flatMap_text_cut s
    rw [hsplit] at htext
    refine ⟨done, todo.flatMap Element.text, (standBefore_of_cut hsplit).1, hbefore, ?_⟩
    simp [← htext, hbefore]
  · rintro ⟨done, rest, hstand, hbefore, rfl⟩
    have hcut := hstand.cut_append
    refine ⟨done, cut rest, ?_, hbefore⟩
    simpa [hbefore] using hcut

theorem lt_stop_of_mem_placed {s : List Char} {q : Placed} (h : q ∈ placed s) :
    q.before.length < q.stop ∧ q.stop ≤ s.length := by
  obtain ⟨c, rest, _, helement⟩ := placed_spec h
  have hpos := List.length_pos_iff.mpr (Element.text_read_ne_nil c rest)
  have hle := (prefix_of_mem_placed h).length_le
  rw [← helement] at hpos
  rw [List.length_append] at hle
  exact ⟨Nat.lt_add_of_pos_right hpos, hle⟩

theorem placed_pairwise_stop (s : List Char) :
    (placed s).Pairwise fun p q => p.stop ≤ q.before.length := by
  refine (placed_pairwise [] _).imp fun {p q} hpq => ?_
  have hle := hpq.length_le
  rwa [List.length_append] at hle

theorem placed_pairwise_lt (s : List Char) :
    (placed s).Pairwise fun p q => p.before.length < q.before.length :=
  (placed_pairwise_stop s).imp_of_mem fun hp _ hpq =>
    Nat.lt_of_lt_of_le (lt_stop_of_mem_placed hp).1 hpq

/-- What is selected from two sources is the same if it stands in the same places. -/
theorem filterMap_placed_eq {s t : List Char} {f : Placed → Option α}
    (h : ∀ q, (f q).isSome = true → (q ∈ placed s ↔ q ∈ placed t)) :
    (placed s).filterMap f = (placed t).filterMap f := by
  have hselect : ∀ l : List Placed,
      (l.filter fun q => (f q).isSome).filterMap f = l.filterMap f := by
    intro l
    rw [List.filterMap_filter]
    congr 1
    funext q
    cases f q <;> rfl
  have hlt := fun u => (placed_pairwise_lt u).filter fun q => (f q).isSome
  have hnodup : ∀ u, ((placed u).filter fun q => (f q).isSome).Nodup := by
    refine fun u => (hlt u).imp ?_
    rintro p _ hpp rfl
    exact Nat.lt_irrefl _ hpp
  have hperm := (List.perm_ext_iff_of_nodup (hnodup s) (hnodup t)).mpr fun q => by
    simp only [List.mem_filter, and_congr_left_iff]
    exact h q
  rw [← hselect, ← hselect (placed t)]
  congr 1
  exact hperm.eq_of_pairwise (fun p q _ _ hpq hqp => absurd hpq (Nat.lt_asymm hqp)) (hlt s) (hlt t)

/-! ### Two texts with a common beginning -/

section

variable {s b c : List Char} {q : Placed}

/-- What is left of a text behind an element that ends in its first part. -/
theorem exists_rest_of_stop {rest : List Char}
    (hsource : s ++ b = q.before ++ q.element.text ++ rest) (hstop : q.stop ≤ s.length) :
    ∃ u, s = q.before ++ q.element.text ++ u ∧ rest = u ++ b ∧ s.length = q.stop + u.length := by
  have hlength : (q.before ++ q.element.text).length ≤ s.length := by
    rwa [List.length_append]
  obtain ⟨u, rfl⟩ := List.prefix_of_prefix_length_le ⟨rest, hsource.symm⟩ ⟨b, rfl⟩ hlength
  rw [List.append_assoc, List.append_cancel_left_eq] at hsource
  refine ⟨u, rfl, hsource.symm, ?_⟩
  rw [List.length_append, List.length_append, Placed.stop]

/-- **Two characters are enough**: an element that ends two characters before the end of a text
stands there however the text goes on. -/
theorem mem_placed_of_stop (hq : q ∈ placed (s ++ b)) (hstop : q.stop + 2 ≤ s.length) :
    q ∈ placed (s ++ c) := by
  obtain ⟨done, rest, hstand, hbefore, hsource⟩ := mem_placed_iff.mp hq
  obtain ⟨u, rfl, rfl, hu⟩ := exists_rest_of_stop hsource (by omega)
  refine mem_placed_iff.mpr ⟨done, u ++ c, hstand.imp fun e _ v hend => ?_, hbefore, by simp⟩
  have htwo : 2 ≤ (v ++ u).length := by
    rw [List.length_append]
    omega
  rw [← List.append_assoc] at hend ⊢
  exact (Element.endsBefore_append_congr htwo b c).mp hend

/-- A stray character ends whatever stands before it, so one character is enough there. -/
theorem mem_placed_of_stray (hq : q ∈ placed (s ++ b)) {d : Char} (hstray : q.element = .stray d)
    (hstop : q.stop ≤ s.length) : q ∈ placed (s ++ c) := by
  obtain ⟨done, rest, hstand, hbefore, hsource⟩ := mem_placed_iff.mp hq
  obtain ⟨u, rfl, rfl, _⟩ := exists_rest_of_stop hsource hstop
  rw [standBefore_append, hstray] at hstand
  obtain ⟨hdone, hread, _⟩ := hstand
  have hpoint : d ≠ '.' := by
    rintro rfl
    exact absurd (hread.lead_of_stray.symm.trans (Lead.of_ofChar? (m := .dot) rfl)) (by simp)
  refine mem_placed_iff.mpr ⟨done, u ++ c, ?_, hbefore, by simp⟩
  rw [standBefore_append, hstray]
  refine ⟨hdone.imp fun e _ v hend => ?_, hread, trivial, trivial⟩
  exact (Element.endsBefore_append_cons_congr hpoint v (u ++ b) (u ++ c)).mp hend

end

/-! ### What ends early -/

/-- What is selected from places, if it ends within the first `n` characters. -/
def Placed.within (n : Nat) (f : Placed → Option α) (q : Placed) : Option α :=
  if q.stop ≤ n then f q else none

/-- The fault is a character that begins nothing. -/
def Fault.isUnexpected : Fault → Bool
  | unexpectedCharacter _ => true
  | _ => false

/-- The diagnostic of a stray character. -/
def Placed.unexpected? (q : Placed) : Option Diagnostic :=
  q.diagnostic?.filter fun d => d.fault.isUnexpected

/-- The tokens of a source that end within its first `n` characters. -/
def tokensWithin (n : Nat) (source : String) : List Token :=
  (placed source.toList).filterMap (Placed.within n Placed.token?)

/-- The diagnostics of the stray characters among the first `n` characters of a source. -/
def unexpectedWithin (n : Nat) (source : String) : List Diagnostic :=
  (placed source.toList).filterMap (Placed.within n Placed.unexpected?)

theorem Placed.exists_stray {q : Placed} (h : q.unexpected?.isSome = true) :
    ∃ c, q.element = .stray c := by
  obtain ⟨d, hd⟩ := Option.isSome_iff_exists.mp h
  obtain ⟨hdiagnostic, hfault⟩ := Option.filter_eq_some_iff.mp hd
  have hbreaks := (Placed.diagnostic?_eq_some hdiagnostic).1
  cases hf : d.fault with
  | unexpectedCharacter c =>
    rw [hf] at hbreaks
    exact ⟨c, hbreaks.eq_stray⟩
  | _ =>
    rw [hf] at hfault
    exact absurd hfault (by simp [Fault.isUnexpected])

theorem Placed.stop_le_of_within {n : Nat} {f : Placed → Option α} {q : Placed}
    (h : (q.within n f).isSome = true) : q.stop ≤ n := by
  rw [within] at h
  split at h
  · assumption
  · exact absurd h (by simp)

theorem Placed.within_eq {n : Nat} {q : Placed} (h : q.stop ≤ n) (f : Placed → Option α) :
    q.within n f = f q := if_pos h

/-- Behind a place that ends late there is nothing that ends early. -/
theorem filterMap_within_eq_nil {n : Nat} {before : List Char} (h : n < before.length)
    (f : Placed → Option α) (es : List Element) :
    (placedFrom before es).filterMap (Placed.within n f) = [] := by
  rw [List.filterMap_eq_nil_iff]
  intro q hq
  have hle := (prefix_of_mem_placedFrom hq).length_le
  rw [Placed.within, if_neg (by rw [Placed.stop]; omega)]

/-- What ends early comes first. -/
theorem filterMap_within_isPrefix (n : Nat) (f : Placed → Option α) (before : List Char)
    (es : List Element) :
    (placedFrom before es).filterMap (Placed.within n f) <+: (placedFrom before es).filterMap f := by
  induction es generalizing before with
  | nil => exact List.prefix_refl _
  | cons e es ih =>
    by_cases hstop : Placed.stop ⟨before, e⟩ ≤ n
    · rw [placedFrom, List.filterMap_cons, List.filterMap_cons, Placed.within_eq hstop]
      cases f ⟨before, e⟩ with
      | none => exact ih _
      | some a => exact List.prefix_cons_inj a |>.mpr (ih _)
    · have hlate : n < (before ++ e.text).length := by
        rw [List.length_append]
        exact Nat.lt_of_not_le hstop
      rw [placedFrom, List.filterMap_cons, Placed.within, if_neg hstop,
        filterMap_within_eq_nil hlate]
      exact List.nil_prefix

theorem tokensWithin_isPrefix (n : Nat) (source : String) :
    tokensWithin n source <+: (scan source).tokens := by
  rw [scan_tokens_eq_placed]
  exact (filterMap_within_isPrefix n _ [] _).trans (List.prefix_append _ _)

theorem unexpectedWithin_isPrefix (n : Nat) (source : String) :
    unexpectedWithin n source <+:
      (scan source).diagnostics.filter fun d => d.fault.isUnexpected := by
  have hdiagnostics : (scan source).diagnostics.filter (fun d => d.fault.isUnexpected) =
      (placed source.toList).filterMap Placed.unexpected? := by
    rw [scan_diagnostics_eq_placed, List.filter_filterMap]
    rfl
  rw [hdiagnostics]
  exact filterMap_within_isPrefix n _ [] _

/-- Before two more elements that are selected, every element ends early. -/
theorem filterMap_placed_isPrefix {s : List Char} {f : Placed → Option α} {as : List α} {a b : α}
    (h : (placed s).filterMap f = as ++ [a] ++ [b]) :
    as <+: (placed s).filterMap (Placed.within (s.length - 2) f) := by
  obtain ⟨ps, qs, hplaced, hps, hqs⟩ := List.filterMap_eq_append_iff.mp h
  obtain ⟨os, ps, rfl, rfl, ha⟩ := List.filterMap_eq_append_iff.mp hps
  obtain ⟨p, hp, _⟩ := List.mem_filterMap.mp (ha ▸ List.mem_singleton_self a)
  obtain ⟨q, hq, _⟩ := List.mem_filterMap.mp (hqs ▸ List.mem_singleton_self b)
  have horder := placed_pairwise_stop s
  rw [hplaced, List.pairwise_append, List.pairwise_append] at horder
  obtain ⟨⟨_, _, hop⟩, _, hpq⟩ := horder
  have hpstop := (lt_stop_of_mem_placed (hplaced ▸ by simp [hp] : p ∈ placed s)).1
  have hqstop := lt_stop_of_mem_placed (hplaced ▸ by simp [hq] : q ∈ placed s)
  have hearly : os.filterMap (Placed.within (s.length - 2) f) = os.filterMap f := by
    refine List.filterMap_congr fun o ho => Placed.within_eq ?_ f
    have hop := hop o ho p hp
    have hpq := hpq p (by simp [hp]) q hq
    omega
  rw [hplaced, List.filterMap_append, List.filterMap_append, hearly, List.append_assoc]
  exact List.prefix_append _ _

/-- Behind every token but the last two there are at least two characters. -/
theorem dropLast_tokens_isPrefix (source : String) :
    (scan source).tokens.dropLast.dropLast.dropLast <+: tokensWithin (source.length - 2) source := by
  rw [scan_tokens_eq_placed, List.dropLast_concat, ← String.length_toList]
  rcases List.eq_nil_or_concat ((placed source.toList).filterMap Placed.token?)
    with h | ⟨ts, t, h⟩
  · rw [h]
    exact List.nil_prefix
  · rcases List.eq_nil_or_concat ts with rfl | ⟨ts, u, rfl⟩
    · rw [h]
      exact List.nil_prefix
    · rw [List.concat_eq_append, List.concat_eq_append] at h
      rw [h, List.dropLast_concat, List.dropLast_concat]
      exact filterMap_placed_isPrefix h

/-! ### Two sources that begin alike -/

theorem tokensWithin_append_eq {s : String} {n : Nat} (h : n ≤ s.length - 2) (b c : String) :
    tokensWithin n (s ++ b) = tokensWithin n (s ++ c) := by
  rw [← String.length_toList] at h
  rw [tokensWithin, tokensWithin, String.toList_append, String.toList_append]
  refine filterMap_placed_eq fun q hq => ?_
  have hstop := Placed.stop_le_of_within hq
  constructor
  · intro hb
    have hlt := (lt_stop_of_mem_placed hb).1
    exact mem_placed_of_stop hb (by omega)
  · intro hc
    have hlt := (lt_stop_of_mem_placed hc).1
    exact mem_placed_of_stop hc (by omega)

theorem unexpectedWithin_append_eq {s : String} {n : Nat} (h : n ≤ s.length) (b c : String) :
    unexpectedWithin n (s ++ b) = unexpectedWithin n (s ++ c) := by
  rw [← String.length_toList] at h
  rw [unexpectedWithin, unexpectedWithin, String.toList_append, String.toList_append]
  refine filterMap_placed_eq fun q hq => ?_
  have hstop := (Placed.stop_le_of_within hq).trans h
  rw [Placed.within_eq (Placed.stop_le_of_within hq)] at hq
  obtain ⟨d, hstray⟩ := Placed.exists_stray hq
  exact ⟨fun hb => mem_placed_of_stray hb hstray hstop,
    fun hc => mem_placed_of_stray hc hstray hstop⟩

/-- **Two characters of lookahead bound every decision**: where two texts begin alike, the tokens
that end two characters before the common part does are the same, and so are all unexpected
characters of the common part.  So if a text goes on, all its tokens but the last two stay as they
are. -/
theorem scan_lookahead (s b c : String) :
    (∀ n, n + 2 ≤ s.length → tokensWithin n (s ++ b) = tokensWithin n (s ++ c)) ∧
      (∀ n, n ≤ s.length → unexpectedWithin n (s ++ b) = unexpectedWithin n (s ++ c)) ∧
      (scan s).tokens.dropLast.dropLast.dropLast <+: (scan (s ++ b)).tokens ∧
      (∀ n source, tokensWithin n source <+: (scan source).tokens) ∧
      ∀ n source, unexpectedWithin n source <+:
        (scan source).diagnostics.filter fun d => d.fault.isUnexpected := by
  refine ⟨fun n hn => tokensWithin_append_eq (by omega) b c,
    fun n hn => unexpectedWithin_append_eq hn b c, ?_, tokensWithin_isPrefix,
    unexpectedWithin_isPrefix⟩
  -- the text itself is the one that goes on with nothing
  have hsame := tokensWithin_append_eq (Nat.le_refl (s.length - 2)) "" b
  rw [String.append_empty] at hsame
  have hkept := dropLast_tokens_isPrefix s
  rw [hsame] at hkept
  exact hkept.trans (tokensWithin_isPrefix _ _)

/-- One character is not enough: behind a digit and a point, the number may go on. -/
theorem scan_lookahead_point :
    tokensWithin 2 ("x 1." ++ "5") = tokensWithin 2 ("x 1." ++ "x") ∧
      tokensWithin 3 ("x 1." ++ "5") ≠ tokensWithin 3 ("x 1." ++ "x") :=
  ⟨(scan_lookahead "x 1." "5" "x").1 2 (by decide +kernel), by decide +kernel⟩

end LoxScan
