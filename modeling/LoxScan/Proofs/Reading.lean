/-
What the elements of a source say.

* `Sign` — a token apart from its line;
* `Element.Denotes`, `Element.Breaks`, `Element.Silent` — the token that an element is, the fault of
  an element, and the elements that are neither;
* `Reading` — the tokens and the diagnostics of elements, in order and each on its line;
* `reading_iff` — the reading of elements is what a scan makes of them;
* `scan_reads_longestCut` — so a scan is the reading of the only cut by the longest match.

Design notes: the relations restate what a token is, class by class, without the code that makes
tokens.  A word is looked up by its spelling alone.
-/
import Mathlib.Logic.ExistsUnique
import LoxScan.Proofs.MaximalMunch
import LoxScan.Scan.Placement

namespace LoxScan

/-- A token apart from its line. -/
structure Sign where
  kind : Kind
  lexeme : List Char
  literal : Option Literal
  deriving DecidableEq

namespace Sign

/-- The token on a line. -/
def onLine (g : Sign) (line : UInt32) : Token := ⟨g.kind, String.ofList g.lexeme, g.literal, line⟩

/-- The end of the source. -/
def endOfInput : Sign := ⟨.endOfInput, [], none⟩

end Sign

/-- The token without its line. -/
def Token.sign (t : Token) : Sign := ⟨t.kind, t.lexeme.toList, t.literal⟩

@[simp] theorem Token.sign_onLine (g : Sign) (line : UInt32) : (g.onLine line).sign = g := by
  simp [Token.sign, Sign.onLine]

@[simp] theorem Token.sign_endOfInput (line : UInt32) :
    (Token.endOfInput line).sign = Sign.endOfInput := by
  simp [Token.sign, Token.endOfInput, Sign.endOfInput]

namespace Element

/-- The element is this token. -/
inductive Denotes : Element → Sign → Prop
  | mark (m : Mark) : Denotes (.mark m) ⟨.mark m, m.text, none⟩
  | keyword (k : Keyword) : Denotes (.word k.text.toList) ⟨.keyword k, k.text.toList, none⟩
  | identifier {letters : List Char} :
      (∀ k : Keyword, k.text.toList ≠ letters) →
        Denotes (.word letters) ⟨.identifier, letters, none⟩
  | number (n : Numeral) : Denotes (.number n) ⟨.number, n.text, some (.number n.value)⟩
  | string (body : List Char) :
      Denotes (.string body)
        ⟨.string, '"' :: body ++ ['"'], some (.text (String.ofList body))⟩

/-- The element is no token and has this fault. -/
inductive Breaks : Element → Fault → Prop
  | openString (body : List Char) : Breaks (.openString body) .unterminatedString
  | stray (c : Char) : Breaks (.stray c) (.unexpectedCharacter c)

/-- The element is no token and has no fault. -/
inductive Silent : Element → Prop
  | blank (c : Char) : Silent (.blank c)
  | newline : Silent .newline
  | comment (body : List Char) : Silent (.comment body)

theorem denotes_or_breaks_or_silent (e : Element) :
    (∃ g, e.Denotes g) ∨ (∃ f, e.Breaks f) ∨ e.Silent := by
  cases e with
  | blank c => exact Or.inr (Or.inr (.blank c))
  | newline => exact Or.inr (Or.inr .newline)
  | comment body => exact Or.inr (Or.inr (.comment body))
  | mark m => exact Or.inl ⟨_, .mark m⟩
  | word letters =>
    by_cases h : ∃ k : Keyword, k.text.toList = letters
    · obtain ⟨k, rfl⟩ := h
      exact Or.inl ⟨_, .keyword k⟩
    · exact Or.inl ⟨_, .identifier fun k hk => h ⟨k, hk⟩⟩
  | number n => exact Or.inl ⟨_, .number n⟩
  | string body => exact Or.inl ⟨_, .string body⟩
  | openString body => exact Or.inr (Or.inl ⟨_, .openString body⟩)
  | stray c => exact Or.inr (Or.inl ⟨_, .stray c⟩)

theorem Denotes.lexeme_eq {e : Element} {g : Sign} (h : e.Denotes g) : g.lexeme = e.text := by
  cases h <;> rfl

theorem Denotes.meaning? {e : Element} {g : Sign} (h : e.Denotes g) :
    e.meaning? = some (g.kind, g.literal) := by
  cases h with
  | keyword k =>
    have hkind : Kind.ofWord k.text = .keyword k := by rw [Kind.ofWord, Keyword.ofText?_text]
    simp [Element.meaning?, hkind]
  | @identifier letters hother =>
    have hnone : Keyword.ofText? (String.ofList letters) = none := by
      rw [Option.eq_none_iff_forall_ne_some]
      intro k hk
      refine hother k ?_
      rw [← Keyword.ofText?_eq_some_iff.mp hk, String.toList_ofList]
    simp [Element.meaning?, Kind.ofWord, hnone]
  | _ => rfl

theorem Denotes.event? {e : Element} {g : Sign} (h : e.Denotes g) (line : UInt32) :
    e.event? line = some (.token (g.onLine line)) := by
  rw [Element.event?, h.meaning?, Sign.onLine, h.lexeme_eq]

theorem Denotes.fault?_eq_none {e : Element} {g : Sign} (h : e.Denotes g) : e.fault? = none := by
  cases h <;> rfl

theorem Breaks.event? {e : Element} {f : Fault} (h : e.Breaks f) (line : UInt32) :
    e.event? line = some (.fault ⟨f, line + UInt32.ofNat e.newlines⟩) := by
  cases h <;> rfl

theorem Breaks.text_ne_nil {e : Element} {f : Fault} (h : e.Breaks f) : e.text ≠ [] := by
  cases h <;> simp [text]

theorem Breaks.eq_openString {e : Element} (h : e.Breaks .unterminatedString) :
    ∃ body, e = .openString body := by
  cases h with
  | openString body => exact ⟨body, rfl⟩

theorem Breaks.eq_stray {e : Element} {c : Char} (h : e.Breaks (.unexpectedCharacter c)) :
    e = .stray c := by
  cases h
  rfl

theorem Silent.event? {e : Element} (h : e.Silent) (line : UInt32) : e.event? line = none := by
  cases h <;> rfl

end Element

/-- The tokens and the diagnostics of elements that follow a text.  A token stands on the line on
which its element begins, a diagnostic on the line on which its element ends. -/
inductive Reading : List Char → List Element → List Token → List Diagnostic → Prop
  | nil {before : List Char} : Reading before [] [] []
  | silent {before : List Char} {e : Element} {es : List Element} {ts : List Token}
      {ds : List Diagnostic} :
      e.Silent → Reading (before ++ e.text) es ts ds → Reading before (e :: es) ts ds
  | token {before : List Char} {e : Element} {g : Sign} {es : List Element} {ts : List Token}
      {ds : List Diagnostic} :
      e.Denotes g → Reading (before ++ e.text) es ts ds →
        Reading before (e :: es) (g.onLine (lineBehind before) :: ts) ds
  | fault {before : List Char} {e : Element} {f : Fault} {es : List Element} {ts : List Token}
      {ds : List Diagnostic} :
      e.Breaks f → Reading (before ++ e.text) es ts ds →
        Reading before (e :: es) ts (⟨f, lineBehind (before ++ e.text)⟩ :: ds)

theorem eventsFrom_cons_behind (before : List Char) (e : Element) (es : List Element) :
    eventsFrom (lineBehind before) (e :: es) =
      (e.event? (lineBehind before)).toList ++ eventsFrom (lineBehind (before ++ e.text)) es := by
  rw [eventsFrom, lineBehind_append]

/-- The events of elements are a reading of them. -/
theorem reading_eventsFrom (before : List Char) (es : List Element) :
    Reading before es ((eventsFrom (lineBehind before) es).filterMap Event.token?)
      ((eventsFrom (lineBehind before) es).filterMap Event.diagnostic?) := by
  induction es generalizing before with
  | nil => exact .nil
  | cons e es ih =>
    have hrest := ih (before ++ e.text)
    rw [eventsFrom_cons_behind]
    rcases e.denotes_or_breaks_or_silent with ⟨g, hg⟩ | ⟨f, hf⟩ | hsilent
    · rw [hg.event?]
      exact .token hg hrest
    · rw [hf.event?, ← lineBehind_append]
      exact .fault hf hrest
    · rw [hsilent.event?]
      exact .silent hsilent hrest

/-- Elements have one reading only. -/
theorem Reading.eq_eventsFrom {before : List Char} {es : List Element} {ts : List Token}
    {ds : List Diagnostic} (h : Reading before es ts ds) :
    ts = (eventsFrom (lineBehind before) es).filterMap Event.token? ∧
      ds = (eventsFrom (lineBehind before) es).filterMap Event.diagnostic? := by
  induction h with
  | nil => exact ⟨rfl, rfl⟩
  | silent hsilent _ ih =>
    rw [eventsFrom_cons_behind, hsilent.event?]
    exact ih
  | token hg _ ih =>
    rw [eventsFrom_cons_behind, hg.event?]
    exact ⟨congrArg _ ih.1, ih.2⟩
  | fault hf _ ih =>
    rw [eventsFrom_cons_behind, hf.event?, ← lineBehind_append]
    exact ⟨ih.1, congrArg _ ih.2⟩

/-- **The reading of elements** is what a scan makes of them. -/
theorem reading_iff {before : List Char} {es : List Element} {ts : List Token}
    {ds : List Diagnostic} :
    Reading before es ts ds ↔
      (eventsFrom (lineBehind before) es).filterMap Event.token? = ts ∧
        (eventsFrom (lineBehind before) es).filterMap Event.diagnostic? = ds := by
  constructor
  · intro h
    exact ⟨h.eq_eventsFrom.1.symm, h.eq_eventsFrom.2.symm⟩
  · rintro ⟨rfl, rfl⟩
    exact reading_eventsFrom before es

theorem scan_tokens (source : String) :
    (scan source).tokens =
      (eventsFrom (lineBehind []) (cut source.toList)).filterMap Event.token? ++
        [Token.endOfInput (lineBehind source.toList)] := by
  rw [Scan.tokens, scan_events, scan_lastLine_eq]
  rfl

theorem scan_diagnostics (source : String) :
    (scan source).diagnostics =
      (eventsFrom (lineBehind []) (cut source.toList)).filterMap Event.diagnostic? := by
  rw [Scan.diagnostics, scan_events]
  rfl

/-- **Maximal munch**: a source has exactly one cut by the longest match, and the scan of the source
is the reading of that cut, followed by the end of the input. -/
theorem scan_reads_longestCut (source : String) :
    (∃! es, LongestCut source.toList es) ∧
      ∀ es, LongestCut source.toList es → ∀ ts ds,
        (Reading [] es ts ds ↔
          (scan source).tokens = ts ++ [Token.endOfInput (lineBehind source.toList)] ∧
            (scan source).diagnostics = ds) := by
  refine ⟨⟨_, longestCut_cut source.toList, fun es h => h.eq_cut⟩, fun es h ts ds => ?_⟩
  rw [h.eq_cut, reading_iff, scan_tokens, scan_diagnostics, List.append_cancel_right_eq]

end LoxScan
