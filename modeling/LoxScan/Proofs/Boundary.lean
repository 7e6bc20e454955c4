/-
Where elements end.

* `Element.EndsBefore` — nothing at the start of a text prolongs the element in front of it;
* `Element.read_append` — a well-formed element is read off a text that does not prolong it;
* `Element.endsBefore_read` — an element that was read ends before the rest;
* `Element.eq_of_text_eq` — the text of a well-formed element says which element it is;
* `cut_text_append` — the first two for the cut of a whole text.

Design notes: the condition looks at one character behind an element, and at two behind a numeral
without a point.  That is all the reading of an element can depend on.
-/
import LoxScan.Element.Class
import LoxScan.Element.Cut

namespace LoxScan

/-! ### Runs of characters -/

theorem of_mem_head?_dropWhile {p : Char → Bool} {s : List Char} {c : Char}
    (h : c ∈ (s.dropWhile p).head?) : p c = false := by
  have hfirst := List.head?_dropWhile_not p s
  rw [h] at hfirst
  simpa using hfirst

theorem takeWhile_run {p : Char → Bool} {run rest : List Char} (hrun : ∀ c ∈ run, p c = true)
    (hrest : ∀ c ∈ rest.head?, p c = false) : (run ++ rest).takeWhile p = run := by
  rw [List.takeWhile_append_of_pos hrun]
  cases rest with
  | nil => simp
  | cons c after => simp [hrest c rfl]

theorem dropWhile_run {p : Char → Bool} {run rest : List Char} (hrun : ∀ c ∈ run, p c = true)
    (hrest : ∀ c ∈ rest.head?, p c = false) : (run ++ rest).dropWhile p = rest := by
  rw [List.dropWhile_append_of_pos hrun]
  cases rest with
  | nil => rfl
  | cons c after => simp [hrest c rfl]

theorem stops_at {p : Char → Bool} {c : Char} (h : p c = false) (rest : List Char) :
    ∀ d ∈ (c :: rest).head?, p d = false := by
  intro d hd
  cases hd
  exact h

theorem bne_of_not_mem {run : List Char} {d : Char} (h : d ∉ run) :
    ∀ c ∈ run, (c != d) = true := by
  intro c hc
  have hne : c ≠ d := by
    rintro rfl
    exact h hc
  simpa using hne

/-- What stands before the first separator is determined by the text. -/
theorem append_cons_inj {c : Char} {x y s t : List Char} (hx : c ∉ x) (hy : c ∉ y)
    (heq : x ++ c :: s = y ++ c :: t) : x = y ∧ s = t := by
  have hstop : ∀ rest, ∀ d ∈ (c :: rest).head?, (d != c) = false := stops_at (by simp)
  have hfirst := takeWhile_run (bne_of_not_mem hx) (hstop s)
  rw [heq, takeWhile_run (bne_of_not_mem hy) (hstop t)] at hfirst
  subst hfirst
  exact ⟨rfl, (List.cons.inj (List.append_cancel_left heq)).2⟩

/-- Texts of which none is the beginning of another one can be told apart in a row. -/
theorem flatMap_inj {α : Type} {f : α → List Char} {P : α → Prop} (hne : ∀ a, P a → f a ≠ [])
    (hinj : ∀ a b s t, P a → P b → f a ++ s = f b ++ t → a = b ∧ s = t) {as bs : List α}
    (has : ∀ a ∈ as, P a) (hbs : ∀ b ∈ bs, P b) (heq : as.flatMap f = bs.flatMap f) : as = bs := by
  induction as generalizing bs with
  | nil =>
    cases bs with
    | nil => rfl
    | cons b bs =>
      have hb := hne b (hbs b List.mem_cons_self)
      exact absurd (List.append_eq_nil_iff.mp heq.symm).1 hb
  | cons a as ih =>
    obtain ⟨ha, hasRest⟩ := List.forall_mem_cons.mp has
    cases bs with
    | nil => exact absurd (List.append_eq_nil_iff.mp heq).1 (hne a ha)
    | cons b bs =>
      obtain ⟨hb, hbsRest⟩ := List.forall_mem_cons.mp hbs
      rw [List.flatMap_cons, List.flatMap_cons] at heq
      obtain ⟨rfl, hrest⟩ := hinj a b _ _ ha hb heq
      rw [ih hasRest hbsRest hrest]

/-! ### Marks -/

namespace Mark

/-- The character makes another mark or a comment of the mark. -/
def GrowsBy (m : Mark) (c : Char) : Prop :=
  c = '=' ∧ m.withEquals?.isSome = true ∨ c = '/' ∧ m = slash

/-- A mark is a single character, or a single character followed by `=`. -/
theorem text_cases (m : Mark) :
    (∃ c, m.text = [c] ∧ ofChar? c = some m) ∨
      ∃ c n, m.text = [c, '='] ∧ ofChar? c = some n ∧ n.withEquals? = some m := by
  cases m <;> first
    | exact Or.inl ⟨_, rfl, rfl⟩
    | exact Or.inr ⟨_, _, rfl, rfl, rfl⟩

theorem not_growsBy_of_withEquals? {m n : Mark} (h : m.withEquals? = some n) (c : Char) :
    ¬ n.GrowsBy c := by
  cases m <;> cases h <;> simp [GrowsBy, withEquals?]

end Mark

namespace Element

theorem readMark_of_not_growsBy {m : Mark} {rest : List Char}
    (h : ∀ c ∈ rest.head?, ¬ m.GrowsBy c) : readMark m rest = (mark m, rest) := by
  unfold readMark
  split
  · exact absurd (Or.inr ⟨rfl, rfl⟩) (h '/' rfl)
  · split
    · next hlonger => exact absurd (Or.inl ⟨rfl, by simp [hlonger]⟩) (h '=' rfl)
    · rfl
  · rfl

theorem readMark_equals {m n : Mark} (h : m.withEquals? = some n) (rest : List Char) :
    readMark m ('=' :: rest) = (mark n, rest) := by
  cases m <;> cases h <;> rfl

end Element

/-! ### Numerals -/

namespace Numeral

theorem isDigit_of_text_eq_cons {n : Numeral} (hwf : n.WellFormed) {c : Char} {s : List Char}
    (h : n.text = c :: s) : c.isDigit = true := by
  obtain ⟨whole, fraction⟩ := n
  obtain ⟨hne, hdigits⟩ := hwf
  cases whole with
  | nil => exact absurd rfl hne
  | cons d whole => cases fraction <;> cases h <;> exact hdigits c (by simp)

theorem text_point_append (whole : List Char) (d : Char) (fraction rest : List Char) :
    text ⟨whole, d :: fraction⟩ ++ rest = whole ++ '.' :: d :: (fraction ++ rest) := by
  simp [text]

theorem text_ne_nil {n : Numeral} (hwf : n.WellFormed) : n.text ≠ [] := by
  obtain ⟨whole, fraction⟩ := n
  have hne : whole ≠ [] := hwf.1
  cases fraction <;> simp [text, hne]

/-- Beside digits there is nothing but a point in a numeral. -/
theorem eq_point_or_isDigit {n : Numeral} (hwf : n.WellFormed) {c : Char} (hc : c ∈ n.text) :
    c = '.' ∨ c.isDigit = true := by
  obtain ⟨whole, fraction⟩ := n
  obtain ⟨_, hdigits⟩ := hwf
  cases fraction with
  | nil => exact Or.inr (hdigits c (List.mem_append_left _ hc))
  | cons d fraction =>
    simp only [text, reduceCtorEq, if_false, List.mem_append, List.mem_cons] at hc
    rcases hc with hc | hc | hc
    · exact Or.inr (hdigits c (List.mem_append_left _ hc))
    · exact Or.inl hc
    · exact Or.inr (hdigits c (List.mem_append_right _ (List.mem_cons.mpr hc)))

/-- The text does not begin with a digit, and if the numeral has no point, not with a point and a
digit either. -/
def EndsBefore (n : Numeral) (rest : List Char) : Prop :=
  (∀ c ∈ rest.head?, c.isDigit = false) ∧
    (n.fraction = [] → ∀ d after, rest = '.' :: d :: after → d.isDigit = false)

theorem read_append {n : Numeral} {rest : List Char} (hwf : n.WellFormed)
    (hend : n.EndsBefore rest) : read (n.text ++ rest) = (n, rest) := by
  obtain ⟨whole, fraction⟩ := n
  obtain ⟨_, hdigits⟩ := hwf
  obtain ⟨hdigit, hpoint⟩ := hend
  have hwhole : ∀ c ∈ whole, c.isDigit = true :=
    fun c hc => hdigits c (List.mem_append_left _ hc)
  cases fraction with
  | nil =>
    have htext : text ⟨whole, []⟩ = whole := rfl
    rw [htext, read, takeWhile_run hwhole hdigit, dropWhile_run hwhole hdigit]
    -- a point without a digit behind it stays in the rest
    split
    · next d after => rw [if_neg (by simp [hpoint rfl d after rfl])]
    · rfl
  | cons d fraction =>
    have hstop := stops_at (p := Char.isDigit) (c := '.') rfl (d :: (fraction ++ rest))
    have hfraction : ∀ c ∈ fraction, c.isDigit = true :=
      fun c hc => hdigits c (by simp [hc])
    -- the point ends the first run of digits, the rest of the text the second one
    rw [text_point_append, read, takeWhile_run hwhole hstop, dropWhile_run hwhole hstop]
    simp [hdigits d (by simp), takeWhile_run hfraction hdigit, dropWhile_run hfraction hdigit]

theorem endsBefore_read (s : List Char) : (read s).1.EndsBefore (read s).2 := by
  have hrest : ∀ c ∈ (s.dropWhile Char.isDigit).head?, c.isDigit = false :=
    fun c hc => of_mem_head?_dropWhile hc
  unfold read
  split
  · next d rest hdrop =>
    split
    · refine ⟨fun c hc => of_mem_head?_dropWhile hc, fun hnil => ?_⟩
      exact absurd hnil (by simp)
    · next hd =>
      rw [hdrop] at hrest
      refine ⟨hrest, fun _ e after heq => ?_⟩
      cases heq
      simpa using hd
  · next hdrop =>
    refine ⟨hrest, fun _ d after heq => ?_⟩
    exact absurd heq (hdrop d after)

end Numeral

/-! ### Elements -/

namespace Element

/-- Nothing at the start of the text prolongs the element. -/
def EndsBefore (e : Element) (rest : List Char) : Prop :=
  match e with
  | blank _ | newline | string _ | stray _ => True
  | comment _ => ∀ c ∈ rest.head?, c = '\n'
  | mark m => ∀ c ∈ rest.head?, ¬ m.GrowsBy c
  | word _ => ∀ c ∈ rest.head?, isWordCharacter c = false
  | number n => n.EndsBefore rest
  | openString _ => rest = []

/-- At the end of the source no well-formed element can go on. -/
theorem endsBefore_nil {e : Element} (hwf : e.WellFormed) : e.EndsBefore [] := by
  cases e with
  | openString body => exact hwf.elim
  | number n => exact ⟨by simp, by simp⟩
  | _ => simp [EndsBefore]

/-- **A well-formed element is read** off a text that does not prolong it. -/
theorem read_append {e : Element} {rest : List Char} (hwf : e.WellFormed)
    (hend : e.EndsBefore rest) {c : Char} {s : List Char} (htext : e.text = c :: s) :
    read c (s ++ rest) = (e, rest) := by
  cases e with
  | blank d =>
    cases htext
    rw [read, Lead.of_isBlank hwf]
    rfl
  | newline =>
    cases htext
    rfl
  | comment body =>
    cases htext
    have hbody := bne_of_not_mem hwf
    have hrest : ∀ c ∈ rest.head?, (c != '\n') = false := by
      intro c hc
      simpa using hend c hc
    rw [read, Lead.of_ofChar? (m := .slash) rfl, List.cons_append]
    simp only [readMark, takeWhile_run hbody hrest, dropWhile_run hbody hrest]
  | mark m =>
    -- a mark of two characters is complete, and only a mark of one can grow
    rcases m.text_cases with ⟨d, hd, hm⟩ | ⟨d, n, hd, hn, hm⟩
    · rw [text, hd] at htext
      cases htext
      rw [read, Lead.of_ofChar? hm]
      exact readMark_of_not_growsBy hend
    · rw [text, hd] at htext
      cases htext
      rw [read, Lead.of_ofChar? hn]
      exact readMark_equals hm rest
  | word letters =>
    obtain ⟨d, after, rfl, hd, hafter⟩ := hwf
    cases htext
    rw [read, Lead.of_isAlphabetic hd]
    simp only [takeWhile_run hafter hend, dropWhile_run hafter hend]
  | number n =>
    have hread := Numeral.read_append hwf hend
    rw [show n.text = c :: s from htext, List.cons_append] at hread
    rw [read, Lead.of_isDigit (Numeral.isDigit_of_text_eq_cons hwf htext)]
    simp only [hread, Prod.map_apply, id_eq]
  | string body =>
    cases htext
    have hbody := bne_of_not_mem hwf
    have hrest := stops_at (p := (· != '"')) (c := '"') rfl rest
    show read '"' (body ++ ['"'] ++ rest) = (string body, rest)
    rw [List.append_assoc, List.singleton_append, read, Lead.of_quote]
    simp only [readString, takeWhile_run hbody hrest, dropWhile_run hbody hrest]
  | openString body => exact hwf.elim
  | stray d => exact hwf.elim

theorem endsBefore_readString (rest : List Char) :
    (readString rest).1.EndsBefore (readString rest).2 := by
  unfold readString
  split
  · exact rfl
  · exact trivial

theorem endsBefore_readMark (m : Mark) (rest : List Char) :
    (readMark m rest).1.EndsBefore (readMark m rest).2 := by
  unfold readMark
  split
  · intro c hc
    simpa using of_mem_head?_dropWhile hc
  · split
    · next n hlonger => exact fun c _ => Mark.not_growsBy_of_withEquals? hlonger c
    · next hnone =>
      -- the `=` stays behind, because no mark ends in it
      intro c hc
      cases hc
      simp [Mark.GrowsBy, hnone]
  · next hequals hslash =>
    intro c hc
    obtain ⟨after, rfl⟩ := List.head?_eq_some_iff.mp hc
    rintro (⟨rfl, _⟩ | ⟨rfl, rfl⟩)
    · exact hequals after rfl
    · exact hslash after rfl rfl

/-- **What is read ends** before the rest. -/
theorem endsBefore_read (c : Char) (s : List Char) : (read c s).1.EndsBefore (read c s).2 := by
  unfold read
  split
  · exact trivial
  · exact trivial
  · exact endsBefore_readString s
  · exact Numeral.endsBefore_read (c :: s)
  · exact fun d hd => of_mem_head?_dropWhile hd
  · exact endsBefore_readMark _ s
  · exact trivial

theorem text_ne_nil {e : Element} (hwf : e.WellFormed) : e.text ≠ [] := by
  cases e with
  | word letters =>
    obtain ⟨c, rest, rfl, _⟩ := hwf
    simp [text]
  | mark m => rcases m.text_cases with ⟨c, hc, _⟩ | ⟨c, n, hc, _⟩ <;> simp [text, hc]
  | number n => exact Numeral.text_ne_nil hwf
  | openString body => exact hwf.elim
  | _ => simp [text]

/-- A well-formed element is determined by its text: at the end of a source it is what is read. -/
theorem eq_of_text_eq {d e : Element} (hd : d.WellFormed) (he : e.WellFormed)
    (h : d.text = e.text) : d = e := by
  obtain ⟨c, s, htext⟩ := List.exists_cons_of_ne_nil (text_ne_nil he)
  have hread := read_append hd (endsBefore_nil hd) (h.trans htext)
  rw [read_append he (endsBefore_nil he) htext] at hread
  exact (congrArg Prod.fst hread).symm

end Element

/-- A well-formed element is the first one of a text that does not prolong it. -/
theorem cut_text_append {e : Element} {rest : List Char} (hwf : e.WellFormed)
    (hend : e.EndsBefore rest) : cut (e.text ++ rest) = e :: cut rest := by
  obtain ⟨c, s, htext⟩ := List.exists_cons_of_ne_nil (Element.text_ne_nil hwf)
  rw [htext, List.cons_append, cut_cons, Element.read_append hwf hend htext]

end LoxScan
