/-
Which tokens there are.

* `Sign.WellFormed` — kind, lexeme and literal belong together;
* `Sign.wellFormed_iff` — such signs are those that well-formed elements denote;
* `wellFormed_of_mem_tokens` — every token of a scan is one of them, but for the end of the input;
* `scan_signs`, `scan_faults` — a scan apart from its lines.
-/
import LoxScan.Proofs.Lines

namespace LoxScan

namespace Element

/-- The token that the element is, apart from its line. -/
def sign? (e : Element) : Option Sign := e.meaning?.map fun m => ⟨m.1, e.text, m.2⟩

theorem Denotes.sign?_eq_some {e : Element} {g : Sign} (h : e.Denotes g) : e.sign? = some g := by
  rw [sign?, h.meaning?, Option.map_some, ← h.lexeme_eq]

theorem Breaks.sign?_eq_none {e : Element} {f : Fault} (h : e.Breaks f) : e.sign? = none := by
  cases h <;> rfl

theorem Breaks.fault?_eq_some {e : Element} {f : Fault} (h : e.Breaks f) : e.fault? = some f := by
  cases h <;> rfl

theorem Silent.sign?_eq_none {e : Element} (h : e.Silent) : e.sign? = none := by
  cases h <;> rfl

theorem Silent.fault?_eq_none {e : Element} (h : e.Silent) : e.fault? = none := by
  cases h <;> rfl

theorem sign?_eq_some_iff {e : Element} {g : Sign} : e.sign? = some g ↔ e.Denotes g := by
  refine ⟨fun h => ?_, Denotes.sign?_eq_some⟩
  rcases e.denotes_or_breaks_or_silent with ⟨h', hh'⟩ | ⟨f, hf⟩ | hsilent
  · rw [hh'.sign?_eq_some, Option.some.injEq] at h
    rwa [← h]
  · rw [hf.sign?_eq_none] at h
    exact absurd h (by simp)
  · rw [hsilent.sign?_eq_none] at h
    exact absurd h (by simp)

end Element

/-- Kind, lexeme and literal belong together. -/
def Sign.WellFormed (g : Sign) : Prop :=
  match g.kind with
  | .mark m => g.lexeme = m.text ∧ g.literal = none
  | .keyword k => g.lexeme = k.text.toList ∧ g.literal = none
  | .identifier =>
    (Element.word g.lexeme).WellFormed ∧ (∀ k : Keyword, k.text.toList ≠ g.lexeme) ∧
      g.literal = none
  | .number => ∃ n : Numeral, n.WellFormed ∧ g.lexeme = n.text ∧ g.literal = some (.number n.value)
  | .string =>
    ∃ body, '"' ∉ body ∧ g.lexeme = '"' :: body ++ ['"'] ∧
      g.literal = some (.text (String.ofList body))
  | .endOfInput => False

/-- Keywords are words. -/
theorem Keyword.word_wellFormed (k : Keyword) : (Element.word k.text.toList).WellFormed := by
  have hletters : ∀ k ∈ Keyword.all, k.text.toList.all Unicode.isAlphabetic = true := by
    decide +kernel
  have hnonempty : ∀ k ∈ Keyword.all, k.text.toList ≠ [] := by decide +kernel
  obtain ⟨c, rest, htext⟩ := List.exists_cons_of_ne_nil (hnonempty k k.mem_all)
  have hk := List.all_eq_true.mp (hletters k k.mem_all)
  rw [htext] at hk ⊢
  refine ⟨c, rest, rfl, hk c (by simp), fun d hd => ?_⟩
  simp [isWordCharacter, hk d (by simp [hd])]

/-- **The well-formed signs** are those that well-formed elements denote. -/
theorem Sign.wellFormed_iff {g : Sign} :
    g.WellFormed ↔ ∃ e : Element, e.WellFormed ∧ e.Denotes g := by
  constructor
  · intro h
    obtain ⟨kind, lexeme, literal⟩ := g
    cases kind with
    | mark m =>
      obtain ⟨rfl, rfl⟩ := h
      exact ⟨.mark m, trivial, .mark m⟩
    | identifier =>
      obtain ⟨hword, hother, rfl⟩ := h
      exact ⟨.word lexeme, hword, .identifier hother⟩
    | string =>
      obtain ⟨body, hbody, rfl, rfl⟩ := h
      exact ⟨.string body, hbody, .string body⟩
    | number =>
      obtain ⟨n, hwf, rfl, rfl⟩ := h
      exact ⟨.number n, hwf, .number n⟩
    | keyword k =>
      obtain ⟨rfl, rfl⟩ := h
      exact ⟨.word k.text.toList, k.word_wellFormed, .keyword k⟩
    | endOfInput => exact h.elim
  · rintro ⟨e, hwf, hg⟩
    cases hg with
    | mark m => exact ⟨rfl, rfl⟩
    | keyword k => exact ⟨rfl, rfl⟩
    | identifier hother => exact ⟨hwf, hother, rfl⟩
    | number n => exact ⟨n, hwf, rfl, rfl⟩
    | string body => exact ⟨body, hwf, rfl, rfl⟩

/-- What is read and denotes a token is well formed. -/
theorem Element.Denotes.wellFormed_of_read {c : Char} {s : List Char} {g : Sign}
    (h : (read c s).1.Denotes g) : (read c s).1.WellFormed := by
  rcases wellFormed_read c s with hwf | hfault
  · exact hwf
  · rw [h.fault?_eq_none] at hfault
    exact absurd hfault (by simp)

/-- **Every token of a scan is well formed**, but for the end of the input. -/
theorem wellFormed_of_mem_tokens {source : String} {t : Token} (h : t ∈ (scan source).tokens)
    (hend : t.kind ≠ .endOfInput) : t.sign.WellFormed := by
  rw [scan_tokens_eq_placed, List.mem_append, List.mem_singleton] at h
  rcases h with h | rfl
  · obtain ⟨p, hp, hpt⟩ := List.mem_filterMap.mp h
    obtain ⟨g, hg, rfl⟩ := Placed.token?_eq_some hpt
    obtain ⟨c, rest, _, helement⟩ := placed_spec hp
    rw [Token.sign_onLine]
    rw [helement] at hg
    exact Sign.wellFormed_iff.mpr ⟨_, hg.wellFormed_of_read, hg⟩
  · exact absurd rfl hend

/-! ### A scan apart from its lines -/

theorem map_sign_eventsFrom (line : UInt32) (es : List Element) :
    ((eventsFrom line es).filterMap Event.token?).map Token.sign = es.filterMap Element.sign? := by
  induction es generalizing line with
  | nil => rfl
  | cons e es ih =>
    rw [eventsFrom, List.filterMap_append, List.map_append, ih, List.filterMap_cons]
    rcases e.denotes_or_breaks_or_silent with ⟨g, hg⟩ | ⟨f, hf⟩ | hsilent
    · simp [hg.event?, hg.sign?_eq_some, Event.token?]
    · simp [hf.event?, hf.sign?_eq_none, Event.token?]
    · simp [hsilent.event?, hsilent.sign?_eq_none]

theorem map_fault_eventsFrom (line : UInt32) (es : List Element) :
    ((eventsFrom line es).filterMap Event.diagnostic?).map Diagnostic.fault =
      es.filterMap Element.fault? := by
  induction es generalizing line with
  | nil => rfl
  | cons e es ih =>
    rw [eventsFrom, List.filterMap_append, List.map_append, ih, List.filterMap_cons]
    rcases e.denotes_or_breaks_or_silent with ⟨g, hg⟩ | ⟨f, hf⟩ | hsilent
    · simp [hg.event?, hg.fault?_eq_none, Event.diagnostic?]
    · simp [hf.event?, hf.fault?_eq_some, Event.diagnostic?]
    · simp [hsilent.event?, hsilent.fault?_eq_none]

theorem scan_signs (source : String) :
    (scan source).tokens.map Token.sign =
      (cut source.toList).filterMap Element.sign? ++ [Sign.endOfInput] := by
  rw [scan_tokens, List.map_append, map_sign_eventsFrom, List.map_singleton,
    Token.sign_endOfInput]

theorem scan_faults (source : String) :
    (scan source).diagnostics.map Diagnostic.fault =
      (cut source.toList).filterMap Element.fault? := by
  rw [scan_diagnostics, map_fault_eventsFrom]

end LoxScan
