/-
Equality of scanned tokens.

* `Sign.Scanned.eq_of_lexeme_eq` — a lexeme determines the kind and the literal of its token;
* `Kind.isReserved_iff`, `Sign.Scanned.isReserved_iff` — the reserved kinds are those of the words
  that are looked up as keywords;
* `Token.beq_self_of_scanned` — a scanned token equals itself;
* `ScannedToken` — the tokens of all scans;
* `scanned_tokens_lawful` — on these, equality compares lexeme and line, and is an equivalence.

Design notes: numbers are compared by value, so that some bits are not equal to themselves and others
equal different ones.  Neither kind of bits is the value of a numeral.
-/
import LoxScan.Proofs.NumberValue

namespace LoxScan

/-! ### Lexemes -/

theorem Sign.WellFormed.lexeme_ne_nil {g : Sign} (h : g.WellFormed) : g.lexeme ≠ [] := by
  obtain ⟨e, hwf, he⟩ := wellFormed_iff.mp h
  rw [he.lexeme_eq]
  exact Element.text_ne_nil hwf

/-- **A lexeme determines its token**, in whatever source it stands. -/
theorem Sign.Scanned.eq_of_lexeme_eq {g h : Sign} (hg : g.Scanned) (hh : h.Scanned)
    (heq : g.lexeme = h.lexeme) : g = h := by
  rcases hg with hg | rfl
  · rcases hh with hh | rfl
    · obtain ⟨d, hdwf, hd⟩ := wellFormed_iff.mp hg
      obtain ⟨e, hewf, he⟩ := wellFormed_iff.mp hh
      have htext : d.text = e.text := by rw [← hd.lexeme_eq, ← he.lexeme_eq, heq]
      have hsign := hd.sign?_eq_some
      rw [Element.eq_of_text_eq hdwf hewf htext, he.sign?_eq_some] at hsign
      exact (Option.some.inj hsign).symm
    · exact absurd heq hg.lexeme_ne_nil
  · rcases hh with hh | rfl
    · exact absurd heq.symm hh.lexeme_ne_nil
    · rfl

/-- The reserved kinds are those that the look-up of a word can give. -/
theorem Kind.isReserved_iff {kind : Kind} :
    kind.isReserved = true ↔ ∃ word, (Keyword.ofText? word).map keyword = some kind := by
  constructor
  · intro h
    cases kind with
    | keyword k => exact ⟨k.text, by rw [Keyword.ofText?_text, Option.map_some]⟩
    | _ => exact absurd h (by simp [isReserved])
  · rintro ⟨word, h⟩
    obtain ⟨k, _, rfl⟩ := Option.map_eq_some_iff.mp h
    rfl

/-- A token has a reserved kind if its lexeme is a keyword, and no other token has. -/
theorem Sign.Scanned.isReserved_iff {g : Sign} (hg : g.Scanned) :
    g.kind.isReserved = true ↔ (Keyword.ofText? (String.ofList g.lexeme)).isSome = true := by
  constructor
  · intro h
    obtain ⟨word, hword⟩ := Kind.isReserved_iff.mp h
    obtain ⟨k, _, hkind⟩ := Option.map_eq_some_iff.mp hword
    have hwf : g.WellFormed := hg.resolve_right fun hend => by
      rw [hend] at hkind
      cases hkind
    rw [WellFormed, ← hkind] at hwf
    rw [hwf.1, String.ofList_toList, Keyword.ofText?_text, Option.isSome_some]
  · intro h
    obtain ⟨k, hk⟩ := Option.isSome_iff_exists.mp h
    -- the keyword itself is a token with this lexeme
    have hlexeme : g.lexeme = k.text.toList := by
      rw [← Keyword.ofText?_eq_some_iff.mp hk, String.toList_ofList]
    have hkeyword : Sign.Scanned ⟨.keyword k, k.text.toList, none⟩ := Or.inl ⟨rfl, rfl⟩
    rw [hg.eq_of_lexeme_eq hkeyword hlexeme]
    rfl

/-! ### Equality -/

theorem Binary64.beq_self (x : Binary64) : (x == x) = !x.isNaN := by
  show x.numericEq x = !x.isNaN
  simp [numericEq]

theorem Literal.beq_self {l : Literal} (h : ∀ x, l = number x → x.isNaN = false) :
    (l == l) = true := by
  cases l with
  | text value => exact beq_self_eq_true value
  | number x =>
    show (x == x) = true
    rw [Binary64.beq_self, h x rfl]
    rfl

theorem Token.beq_eq_true_iff {a b : Token} :
    (a == b) = true ↔
      a.kind = b.kind ∧ a.lexeme = b.lexeme ∧ (a.literal == b.literal) = true ∧ a.line = b.line := by
  show (decide (a.kind = b.kind) && a.lexeme == b.lexeme && a.literal == b.literal &&
    a.line == b.line) = true ↔ _
  simp [and_assoc]

/-- **A scanned token equals itself**: no literal is without a value. -/
theorem Token.beq_self_of_scanned {source : String} {t : Token} (ht : t ∈ (scan source).tokens) :
    (t == t) = true := by
  have hliteral : (t.literal == t.literal) = true := by
    cases hl : t.literal with
    | none => rfl
    | some l =>
      have hvalue : ∀ x, l = .number x → x.isNaN = false := by
        rintro x rfl
        exact ((numbersExact source).number_literal t ht x hl).2.1
      exact Literal.beq_self hvalue
  exact beq_eq_true_iff.mpr ⟨rfl, rfl, hliteral, rfl⟩

theorem Token.scanned_sign {source : String} {t : Token} (ht : t ∈ (scan source).tokens) :
    t.sign.Scanned := scanned_of_mem_signs (List.mem_map_of_mem ht)

/-- Scanned tokens with the same lexeme have the same kind and the same literal. -/
theorem Token.eq_of_lexeme_eq {source other : String} {a b : Token}
    (ha : a ∈ (scan source).tokens) (hb : b ∈ (scan other).tokens) (h : a.lexeme = b.lexeme) :
    a.kind = b.kind ∧ a.literal = b.literal := by
  have hsign : a.sign = b.sign :=
    (scanned_sign ha).eq_of_lexeme_eq (scanned_sign hb) (congrArg String.toList h)
  exact ⟨congrArg Sign.kind hsign, congrArg Sign.literal hsign⟩

/-- **Scanned tokens are equal** if they have the same lexeme and stand on the same line. -/
theorem Token.beq_iff_of_scanned {source other : String} {a b : Token}
    (ha : a ∈ (scan source).tokens) (hb : b ∈ (scan other).tokens) :
    (a == b) = true ↔ a.lexeme = b.lexeme ∧ a.line = b.line := by
  constructor
  · intro h
    obtain ⟨_, hlexeme, _, hline⟩ := beq_eq_true_iff.mp h
    exact ⟨hlexeme, hline⟩
  · rintro ⟨hlexeme, hline⟩
    obtain ⟨hkind, hliteral⟩ := eq_of_lexeme_eq ha hb hlexeme
    have hsame : a = b := by
      cases a
      cases b
      cases hkind
      cases hlexeme
      cases hliteral
      cases hline
      rfl
    rw [← hsame]
    exact beq_self_of_scanned ha

/-- The tokens of all scans. -/
def ScannedToken : Type := { t : Token // ∃ source, t ∈ (scan source).tokens }

theorem ScannedToken.equivalence :
    Equivalence fun a b : ScannedToken => (a.val == b.val) = true where
  refl := by
    rintro ⟨t, source, ht⟩
    exact Token.beq_self_of_scanned ht
  symm := by
    rintro ⟨a, s, ha⟩ ⟨b, t, hb⟩ h
    obtain ⟨hlexeme, hline⟩ := (Token.beq_iff_of_scanned ha hb).mp h
    exact (Token.beq_iff_of_scanned hb ha).mpr ⟨hlexeme.symm, hline.symm⟩
  trans := by
    rintro ⟨a, s, ha⟩ ⟨b, t, hb⟩ ⟨c, u, hc⟩ h h'
    obtain ⟨hlexeme, hline⟩ := (Token.beq_iff_of_scanned ha hb).mp h
    obtain ⟨hlexeme', hline'⟩ := (Token.beq_iff_of_scanned hb hc).mp h'
    exact (Token.beq_iff_of_scanned ha hc).mpr ⟨hlexeme.trans hlexeme', hline.trans hline'⟩

/-- **Equality of tokens is lawful** on those of all scans.  Two of them are equal if and only if
they have the same lexeme and stand on the same line; the lexeme determines the kind and the literal
with all its bits; and the kind is reserved if and only if the lexeme is a keyword.  So equality is
an equivalence and never takes one literal for another, although the equality of numbers alone is
not reflexive and does not tell all bits apart. -/
theorem scanned_tokens_lawful :
    (∀ source other, ∀ a ∈ (scan source).tokens, ∀ b ∈ (scan other).tokens,
      ((a == b) = true ↔ a.lexeme = b.lexeme ∧ a.line = b.line) ∧
        (a.lexeme = b.lexeme → a.kind = b.kind ∧ a.literal = b.literal) ∧
        ((a == b) = true → a.literal = b.literal)) ∧
    (∀ source, ∀ a ∈ (scan source).tokens,
      a.kind.isReserved = true ↔ (Keyword.ofText? a.lexeme).isSome = true) ∧
    (Equivalence fun a b : ScannedToken => (a.val == b.val) = true) ∧
    (∃ x : Binary64, (x == x) = false) ∧
    ∃ x y : Binary64, (x == y) = true ∧ x.bits ≠ y.bits := by
  refine ⟨fun source other a ha b hb => ?_, fun source a ha => ?_, ScannedToken.equivalence,
    ?_, ?_⟩
  · have hsame := Token.eq_of_lexeme_eq ha hb
    have hiff := Token.beq_iff_of_scanned ha hb
    exact ⟨hiff, hsame, fun h => (hsame (hiff.mp h).1).2⟩
  · have hreserved := (Token.scanned_sign ha).isReserved_iff
    rwa [Token.sign, String.ofList_toList] at hreserved
  · have hnan : ((⟨0x7FF8000000000000⟩ : Binary64) == ⟨0x7FF8000000000000⟩) = false := by
      decide +kernel
    exact ⟨_, hnan⟩
  · have hzeros : ((⟨0⟩ : Binary64) == ⟨0x8000000000000000⟩) = true := by decide +kernel
    exact ⟨_, _, hzeros, by decide⟩

/-- The same number in two sources, behind a word and in front of a point. -/
theorem scanned_tokens_lawful_number :
    ⟨.number, "1.5", some (.number ⟨0x3FF8000000000000⟩), 1⟩ ∈ (scan "or 1.5").tokens ∧
      ⟨.number, "1.5", some (.number ⟨0x3FF8000000000000⟩), 1⟩ ∈ (scan "1.5.and").tokens ∧
      ((⟨.number, "1.5", some (.number ⟨0x3FF8000000000000⟩), 1⟩ : Token) ==
        ⟨.number, "1.5", some (.number ⟨0x3FF8000000000000⟩), 1⟩) = true := by
  have hfirst : ⟨.number, "1.5", some (.number ⟨0x3FF8000000000000⟩), 1⟩ ∈
      (scan "or 1.5").tokens := List.mem_of_getElem? (i := 1) (by decide +kernel)
  have hsecond : ⟨.number, "1.5", some (.number ⟨0x3FF8000000000000⟩), 1⟩ ∈
      (scan "1.5.and").tokens := List.mem_of_getElem? (i := 0) (by decide +kernel)
  exact ⟨hfirst, hsecond, (scanned_tokens_lawful.1 _ _ _ hfirst _ hsecond).1.mpr ⟨rfl, rfl⟩⟩

end LoxScan
