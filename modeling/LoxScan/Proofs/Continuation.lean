/-
Elements in front of a text that may go on in different ways.

* `Element.Readable` — the elements that reading can give;
* `Element.read_append_of_readable` — a readable element is read off a text that does not prolong it;
* `Element.endsBefore_congr` — what prolongs an element shows in the first character behind it, and
  in whether a point and a digit stand there;
* `cut_induction` — induction on the elements of a text;
* `StandBefore` — elements that are read one after another in front of a text, with which the cut
  of both together begins (`StandBefore.cut_append`, `standBefore_of_cut`);
* `StandBefore.cons_of_last`, `StandBefore.exchange_last` — what else they may stand before, and which
  other elements may.

Design notes: a text is cut from its start, but what was cut off may depend on what follows.  Laws on
texts that are put together all come down to the same question, whether the elements of the first
part still end where they ended.
-/
import Mathlib.Data.List.TakeWhile
import LoxScan.Proofs.MaximalMunch

namespace LoxScan

/-- The text begins like the part of a numeral behind its whole digits. -/
def BeginsFraction (s : List Char) : Prop := ∃ d after, s = '.' :: d :: after ∧ d.isDigit = true

@[simp] theorem not_beginsFraction_nil : ¬ BeginsFraction [] := by simp [BeginsFraction]

@[simp] theorem not_beginsFraction_singleton (c : Char) : ¬ BeginsFraction [c] := by
  simp [BeginsFraction]

@[simp] theorem beginsFraction_cons_cons {c d : Char} {s : List Char} :
    BeginsFraction (c :: d :: s) ↔ c = '.' ∧ d.isDigit = true := by
  constructor
  · rintro ⟨d, after, heq, hd⟩
    cases heq
    exact ⟨rfl, hd⟩
  · rintro ⟨rfl, hd⟩
    exact ⟨d, s, rfl, hd⟩

theorem not_beginsFraction_cons {c : Char} (h : c ≠ '.') (s : List Char) :
    ¬ BeginsFraction (c :: s) := by
  rintro ⟨d, after, heq, _⟩
  exact h (List.cons.inj heq).1

theorem BeginsFraction.append {s : List Char} (h : BeginsFraction s) (t : List Char) :
    BeginsFraction (s ++ t) := by
  obtain ⟨d, after, rfl, hd⟩ := h
  exact ⟨d, after ++ t, rfl, hd⟩

theorem Numeral.endsBefore_iff {n : Numeral} {s : List Char} :
    n.EndsBefore s ↔
      (∀ c ∈ s.head?, c.isDigit = false) ∧ (n.fraction = [] → ¬ BeginsFraction s) := by
  simp [Numeral.EndsBefore, BeginsFraction]

namespace Element

/-! ### What is read -/

/-- The element is well formed, or a character that begins nothing, or a quote and a text without
another one. -/
inductive Readable : Element → Prop
  | wellFormed {e : Element} : e.WellFormed → Readable e
  | stray {c : Char} : Lead.of c = .stray → Readable (.stray c)
  | openString {body : List Char} : '"' ∉ body → Readable (.openString body)

theorem read_stray {c : Char} (h : Lead.of c = .stray) (s : List Char) :
    read c s = (stray c, s) := by
  rw [read, h]

theorem lead_of_read_stray {c : Char} {s : List Char} (h : read c s = (stray c, s)) :
    Lead.of c = .stray := by
  have hfault : (read c s).1.fault?.isSome = true := by rw [h]; rfl
  rcases hlead : Lead.of c with _ | _ | _ | _ | _ | m | _
  case stray => rfl
  case mark =>
    rw [read, hlead, fault?_eq_none (wellFormed_readMark m s)] at hfault
    exact absurd hfault (by simp)
  case quote =>
    rcases read_of_fault hfault with ⟨_, hopen⟩ | ⟨hquote, _⟩
    · rw [h] at hopen
      exact absurd hopen (by simp)
    · exact absurd (Lead.eq_of_of_eq_quote hlead) hquote
  all_goals
    rw [read, hlead] at hfault
    exact absurd hfault (by simp [fault?])

/-- **What is read is readable.** -/
theorem readable_read (c : Char) (s : List Char) : (read c s).1.Readable := by
  rcases wellFormed_read c s with hwf | hfault
  · exact .wellFormed hwf
  · have hnone := unmatched_of_fault hfault
    rcases read_of_fault hfault with ⟨rfl, hread⟩ | ⟨_, hread⟩
    · rw [hread]
      exact .openString (not_mem_of_unmatched hnone)
    · rw [hread]
      exact .stray (lead_of_read_stray hread)

theorem Readable.lead_of_stray {c : Char} (h : (Element.stray c).Readable) : Lead.of c = .stray := by
  cases h with
  | wellFormed hwf => exact hwf.elim
  | stray hlead => exact hlead

theorem Readable.text_ne_nil {e : Element} (h : e.Readable) : e.text ≠ [] := by
  cases h with
  | wellFormed hwf => exact Element.text_ne_nil hwf
  | stray _ => simp [text]
  | openString _ => simp [text]

/-- **A readable element is read** off a text that does not prolong it. -/
theorem read_append_of_readable {e : Element} {rest : List Char} (h : e.Readable)
    (hend : e.EndsBefore rest) {c : Char} {s : List Char} (htext : e.text = c :: s) :
    read c (s ++ rest) = (e, rest) := by
  cases h with
  | wellFormed hwf => exact read_append hwf hend htext
  | stray hlead =>
    cases htext
    exact read_stray hlead rest
  | openString hbody =>
    cases htext
    have hdrop : s.dropWhile (· != '"') = [] :=
      List.dropWhile_eq_nil_iff.mpr (bne_of_not_mem hbody)
    rw [show rest = [] from hend, List.append_nil, read, Lead.of_quote]
    simp [readString, hdrop]

/-! ### What an element depends on -/

/-- **Only the first character** of what follows matters, and whether that is a point with a digit
behind it. -/
theorem endsBefore_congr {e : Element} {s t : List Char} (hhead : s.head? = t.head?)
    (hpoint : BeginsFraction s ↔ BeginsFraction t) : e.EndsBefore s ↔ e.EndsBefore t := by
  cases e with
  | number n =>
    show n.EndsBefore s ↔ n.EndsBefore t
    rw [Numeral.endsBefore_iff, Numeral.endsBefore_iff, hhead, hpoint]
  | openString body =>
    show s = [] ↔ t = []
    rw [← List.head?_eq_none_iff, hhead, List.head?_eq_none_iff]
  | _ => simp only [EndsBefore, hhead]

/-- So behind two characters anything may follow. -/
theorem endsBefore_append_congr {e : Element} {u : List Char} (h : 2 ≤ u.length)
    (s t : List Char) : e.EndsBefore (u ++ s) ↔ e.EndsBefore (u ++ t) := by
  match u with
  | [] | [_] => exact absurd h (by simp)
  | c :: d :: u => exact endsBefore_congr rfl (by simp)

/-- And so it may behind a character that is no point. -/
theorem endsBefore_append_cons_congr {e : Element} {c : Char} (h : c ≠ '.') (u s t : List Char) :
    e.EndsBefore (u ++ c :: s) ↔ e.EndsBefore (u ++ c :: t) := by
  cases u with
  | nil =>
    have hpoint := iff_of_false (not_beginsFraction_cons h s) (not_beginsFraction_cons h t)
    exact endsBefore_congr (by rfl) hpoint
  | cons d u =>
    have hlength : 2 ≤ (d :: u ++ [c]).length := by simp
    simpa using endsBefore_append_congr hlength s t

/-- Behind a text that is not empty, a character that is no digit makes no difference. -/
theorem endsBefore_append_cons_iff {e : Element} {s : List Char} (hne : s ≠ []) {c : Char}
    (hdigit : c.isDigit = false) (t : List Char) :
    e.EndsBefore (s ++ c :: t) ↔ e.EndsBefore s := by
  match s with
  | [] => exact absurd rfl hne
  | [d] =>
    -- a point at the end of the text is not the point of a numeral
    have hpoint : BeginsFraction (d :: c :: t) ↔ BeginsFraction [d] := by simp [hdigit]
    exact endsBefore_congr (by rfl) hpoint
  | d :: b :: s =>
    have hpoint : BeginsFraction (d :: b :: (s ++ c :: t)) ↔ BeginsFraction (d :: b :: s) := by
      simp
    exact endsBefore_congr (by rfl) hpoint

/-- An element that ends before a text ends before every beginning of it. -/
theorem EndsBefore.left {e : Element} {s t : List Char} (h : e.EndsBefore (s ++ t)) :
    e.EndsBefore s := by
  cases s with
  | nil =>
    cases e with
    | number n => exact ⟨by simp, by simp⟩
    | _ => simp [EndsBefore]
  | cons c s =>
    cases e with
    | number n =>
      obtain ⟨hdigit, hpoint⟩ := Numeral.endsBefore_iff.mp h
      exact Numeral.endsBefore_iff.mpr ⟨hdigit, fun hnil hs => hpoint hnil (hs.append t)⟩
    | openString body => exact absurd h (by simp [EndsBefore])
    | _ => exact h

end Element

/-- A readable element is the first one of a text that does not prolong it. -/
theorem cut_text_append_of_readable {e : Element} {rest : List Char} (h : e.Readable)
    (hend : e.EndsBefore rest) : cut (e.text ++ rest) = e :: cut rest := by
  obtain ⟨c, s, htext⟩ := List.exists_cons_of_ne_nil h.text_ne_nil
  rw [htext, List.cons_append, cut_cons, Element.read_append_of_readable h hend htext]

/-- Induction on the elements of a text: it is empty, or it is an element in front of a rest, and the
property is known for every end of that rest. -/
@[elab_as_elim]
theorem cut_induction {motive : List Char → Prop} (nil : motive [])
    (element : ∀ (e : Element) rest, e.Readable → e.EndsBefore rest →
      (∀ s, s <:+ rest → motive s) → motive (e.text ++ rest)) (s : List Char) : motive s := by
  induction h : s.length using Nat.strongRecOn generalizing s with
  | ind n ih =>
    cases s with
    | nil => exact nil
    | cons c s =>
      have hlength := Element.length_read_le c s
      simp only [List.length_cons] at h
      rw [← Element.text_read_append c s]
      refine element _ _ (Element.readable_read c s) (Element.endsBefore_read c s) ?_
      intro t ht
      have hle := ht.length_le
      exact ih t.length (by omega) t rfl

/-! ### Elements in front of a text -/

/-- The elements are read one after another in front of the text. -/
def StandBefore : List Element → List Char → Prop
  | [], _ => True
  | e :: es, rest =>
    e.Readable ∧ e.EndsBefore (es.flatMap Element.text ++ rest) ∧ StandBefore es rest

theorem StandBefore.cut_append {es : List Element} {rest : List Char} (h : StandBefore es rest) :
    cut (es.flatMap Element.text ++ rest) = es ++ cut rest := by
  induction es with
  | nil => rfl
  | cons e es ih =>
    obtain ⟨hread, hend, hes⟩ := h
    rw [List.flatMap_cons, List.append_assoc, cut_text_append_of_readable hread hend, ih hes,
      List.cons_append]

/-- The first elements of a cut stand before the text of the others, which are the cut of it. -/
theorem standBefore_of_cut {s : List Char} {es fs : List Element} (h : cut s = es ++ fs) :
    StandBefore es (fs.flatMap Element.text) ∧ cut (fs.flatMap Element.text) = fs := by
  induction es generalizing s with
  | nil =>
    refine ⟨trivial, ?_⟩
    rw [← List.nil_append fs, ← h, flatMap_text_cut]
  | cons e es ih =>
    cases s with
    | nil => exact absurd h (by simp)
    | cons c s =>
      rw [cut_cons, List.cons_append, List.cons.injEq] at h
      obtain ⟨rfl, hrest⟩ := h
      obtain ⟨hes, hfs⟩ := ih hrest
      have htext := flatMap_text_cut (Element.read c s).2
      rw [hrest, List.flatMap_append] at htext
      refine ⟨⟨Element.readable_read c s, ?_, hes⟩, hfs⟩
      rw [htext]
      exact Element.endsBefore_read c s

theorem standBefore_cut (s : List Char) : StandBefore (cut s) [] :=
  (standBefore_of_cut (List.append_nil _).symm).1

theorem standBefore_append {es fs : List Element} {rest : List Char} :
    StandBefore (es ++ fs) rest ↔
      StandBefore es (fs.flatMap Element.text ++ rest) ∧ StandBefore fs rest := by
  induction es with
  | nil => simp [StandBefore]
  | cons e es ih =>
    simp only [List.cons_append, StandBefore, ih, List.flatMap_append, List.append_assoc, and_assoc]

/-- The text behind the elements may be exchanged where all of them still end. -/
theorem StandBefore.imp {es : List Element} {s t : List Char} (h : StandBefore es s)
    (hends : ∀ e ∈ es, ∀ u, e.EndsBefore (u ++ s) → e.EndsBefore (u ++ t)) : StandBefore es t := by
  induction es with
  | nil => trivial
  | cons e es ih =>
    obtain ⟨hread, hend, hes⟩ := h
    exact ⟨hread, hends e (by simp) _ hend, ih hes fun d hd => hends d (by simp [hd])⟩

/-- Elements that stand before a text stand before every beginning of it. -/
theorem StandBefore.left {es : List Element} {s t : List Char} (h : StandBefore es (s ++ t)) :
    StandBefore es s := by
  refine h.imp fun e _ u hend => ?_
  rw [← List.append_assoc] at hend
  exact hend.left

/-- Behind a character that is no point anything may follow. -/
theorem StandBefore.cons_congr {es : List Element} {c : Char} {s : List Char}
    (h : StandBefore es (c :: s)) (hc : c ≠ '.') (t : List Char) : StandBefore es (c :: t) :=
  h.imp fun _ _ u hend => (Element.endsBefore_append_cons_congr hc u s t).mp hend

/-- Elements at the end of a text still end if it goes on with a character that is no digit, unless
the last of them goes on with it. -/
theorem StandBefore.cons_of_last {es : List Element} (h : StandBefore es []) {c : Char}
    (hdigit : c.isDigit = false) {t : List Char}
    (hlast : ∀ e ∈ es.getLast?, e.EndsBefore (c :: t)) : StandBefore es (c :: t) := by
  induction es with
  | nil => trivial
  | cons e es ih =>
    obtain ⟨hread, hend, hes⟩ := h
    cases es with
    | nil => exact ⟨hread, hlast e rfl, trivial⟩
    | cons d ds =>
      have hne : (d :: ds).flatMap Element.text ≠ [] := by simp [hes.1.text_ne_nil]
      rw [List.append_nil] at hend
      exact ⟨hread, (Element.endsBefore_append_cons_iff hne hdigit t).mpr hend, ih hes hlast⟩

/-- The last element may be exchanged for one that begins with the same character. -/
theorem StandBefore.exchange_last {es : List Element} {d e : Element} {s t : List Char}
    (h : StandBefore (es ++ [d]) s) {c : Char} (hc : c ≠ '.') {u v : List Char}
    (hd : d.text = c :: u) (he : e.text = c :: v) (hread : e.Readable) (hend : e.EndsBefore t) :
    StandBefore (es ++ [e]) t := by
  have hes := (standBefore_append.mp h).1
  refine standBefore_append.mpr ⟨?_, hread, by simpa using hend, trivial⟩
  simp only [List.flatMap_cons, List.flatMap_nil, hd, List.append_nil, List.cons_append] at hes
  simp only [List.flatMap_cons, List.flatMap_nil, he, List.append_nil, List.cons_append]
  exact hes.cons_congr hc (v ++ t)

/-- Elements that stand before some text are the cut of their own text. -/
theorem StandBefore.cut_flatMap {es : List Element} {s : List Char} (h : StandBefore es s) :
    cut (es.flatMap Element.text) = es := by
  have hcut := StandBefore.cut_append (StandBefore.left (s := []) h)
  rwa [cut_nil, List.append_nil, List.append_nil] at hcut

/-- Only at the end of a source an open string can stand. -/
theorem StandBefore.ne_openString {es : List Element} {s : List Char} (h : StandBefore es s)
    (hs : s ≠ []) : ∀ e ∈ es, ∀ body, e ≠ .openString body := by
  induction es with
  | nil => simp
  | cons e es ih =>
    obtain ⟨_, hend, hes⟩ := h
    refine List.forall_mem_cons.mpr ⟨?_, ih hes⟩
    rintro body rfl
    exact hs (List.append_eq_nil_iff.mp hend).2

end LoxScan
