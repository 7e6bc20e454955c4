/-
Byte offsets into a source.

* `byteLength` — how many bytes a text has;
* `isValid_iff` — the offsets on character boundaries are those behind a beginning of the source;
* `slice?_eq_some_iff` — a slice between two such offsets does not fail, and no other one succeeds;
* `Cursor.Standing` — the offsets of a cursor divide its source into three texts;
* `Standing.ahead?`, `Standing.lexeme?`, `Standing.body?` — then none of its slices fails;
* `Standing.advance?`, `Standing.accept?` — and how it goes on.

Design notes: an offset is on a character boundary just when it is the byte length of a beginning of
the source, so the proofs carry texts, and the offsets are always those of texts.
-/
import LoxScan.Proofs.Utf8
import LoxScan.Scan.Cursor

namespace LoxScan

/-- How many bytes the text has in UTF-8. -/
def byteLength (s : List Char) : Nat := (utf8 s).length

@[simp] theorem byteLength_nil : byteLength [] = 0 := rfl

@[simp] theorem byteLength_cons (c : Char) (s : List Char) :
    byteLength (c :: s) = c.utf8Size + byteLength s := by
  rw [byteLength, utf8_cons, List.length_append, String.length_utf8EncodeChar, byteLength]

@[simp] theorem byteLength_append (s t : List Char) :
    byteLength (s ++ t) = byteLength s + byteLength t := by
  rw [byteLength, utf8_append, List.length_append, byteLength, byteLength]

theorem byteLength_toList (source : String) : byteLength source.toList = source.utf8ByteSize :=
  (utf8ByteSize_eq source).symm

theorem byteLength_pos {s : List Char} (h : s ≠ []) : 0 < byteLength s := by
  obtain ⟨c, t, rfl⟩ := List.exists_cons_of_ne_nil h
  have hfirst := c.utf8Size_pos
  rw [byteLength_cons]
  omega

theorem utf8ByteSize_ofList (s : List Char) : (String.ofList s).utf8ByteSize = byteLength s := by
  rw [← byteLength_toList, String.toList_ofList]

/-- **An offset is on a character boundary** just when it is behind a beginning of the source. -/
theorem isValid_iff {source : String} {offset : Nat} :
    String.Pos.Raw.IsValid source ⟨offset⟩ ↔
      ∃ before after, source.toList = before ++ after ∧ offset = byteLength before := by
  rw [String.Pos.Raw.isValid_iff_exists_append]
  constructor
  · rintro ⟨s, t, rfl, hoffset⟩
    refine ⟨s.toList, t.toList, String.toList_append, ?_⟩
    rw [byteLength_toList]
    exact congrArg String.Pos.Raw.byteIdx hoffset
  · rintro ⟨before, after, hsource, rfl⟩
    refine ⟨String.ofList before, String.ofList after, ?_, ?_⟩
    · rw [← String.ofList_append, ← hsource, String.ofList_toList]
    · rw [← utf8ByteSize_ofList]
      rfl

theorem isValid_byteLength {source : String} {before after : List Char}
    (h : source.toList = before ++ after) :
    String.Pos.Raw.IsValid source ⟨byteLength before⟩ :=
  isValid_iff.mpr ⟨before, after, h, rfl⟩

/-- **A slice between two beginnings** of the source does not fail. -/
theorem slice?_eq_some {source : String} {before text after : List Char}
    (h : source.toList = before ++ text ++ after) :
    slice? source (byteLength before) (byteLength (before ++ text)) =
      some (String.ofList text) := by
  have hstart := isValid_byteLength (h.trans (List.append_assoc _ _ _))
  have hstop := isValid_byteLength h
  have hle : byteLength before ≤ byteLength (before ++ text) := by
    rw [byteLength_append]
    omega
  have hbytes : ((utf8 source.toList).drop (byteLength before)).take
      (byteLength (before ++ text) - byteLength before) = utf8 text := by
    rw [h, byteLength_append, Nat.add_sub_cancel_left, utf8_append, utf8_append, List.append_assoc]
    simp [byteLength]
  rw [slice?, dif_pos ⟨hle, hstart, hstop⟩, Option.some.injEq, ← String.toByteArray_inj,
    String.toByteArray_extract]
  refine ByteArray.ext (Array.toList_inj.mp ?_)
  rw [ByteArray.data_extract, Array.toList_extract, toByteArray_eq_utf8, toByteArray_eq_utf8,
    String.toList_ofList, List.extract_eq_take_drop]
  exact hbytes

/-- Of two beginnings of a text, the one with fewer bytes is a beginning of the other one. -/
theorem prefix_of_byteLength_le {s t text : List Char} (hs : s <+: text) (ht : t <+: text)
    (hle : byteLength s ≤ byteLength t) : s <+: t := by
  rcases List.prefix_or_prefix_of_prefix hs ht with h | ⟨more, rfl⟩
  · exact h
  · rw [byteLength_append] at hle
    cases more with
    | nil => simp
    | cons c more =>
      have hpos := byteLength_pos (List.cons_ne_nil c more)
      omega

/-- **A slice fails** unless it is between two beginnings of the source. -/
theorem slice?_eq_some_iff {source text : String} {start stop : Nat} :
    slice? source start stop = some text ↔
      ∃ before after, source.toList = before ++ text.toList ++ after ∧ start = byteLength before ∧
        stop = byteLength (before ++ text.toList) := by
  constructor
  · intro h
    have hin : start ≤ stop ∧ String.Pos.Raw.IsValid source ⟨start⟩ ∧
        String.Pos.Raw.IsValid source ⟨stop⟩ := by
      refine Decidable.byContradiction fun hout => ?_
      rw [slice?, dif_neg hout] at h
      exact absurd h (by simp)
    obtain ⟨hle, hstart, hstop⟩ := hin
    obtain ⟨before, rest, hbefore, rfl⟩ := isValid_iff.mp hstart
    obtain ⟨_, after, hafter, rfl⟩ := isValid_iff.mp hstop
    obtain ⟨s, rfl⟩ := prefix_of_byteLength_le ⟨rest, hbefore.symm⟩ ⟨after, hafter.symm⟩ hle
    rw [slice?_eq_some hafter, Option.some.injEq] at h
    subst h
    rw [String.toList_ofList]
    exact ⟨before, after, hafter, rfl, rfl⟩
  · rintro ⟨before, after, hsource, rfl, rfl⟩
    rw [slice?_eq_some hsource, String.ofList_toList]

example : slice? "é" 0 1 = none := by decide +kernel

/-! ### Where a cursor stands -/

namespace Cursor

/-- The source consists of what stands in front of the element, of what was read of it, and of the
rest. -/
structure Standing (m : Cursor) (before taken rest : List Char) : Prop where
  source_eq : m.source.toList = before ++ taken ++ rest
  start_eq : m.start = byteLength before
  pos_eq : m.pos = byteLength (before ++ taken)

namespace Standing

variable {m : Cursor} {before taken rest : List Char}

theorem start_le_pos (h : m.Standing before taken rest) : m.start ≤ m.pos := by
  rw [h.start_eq, h.pos_eq, byteLength_append]
  omega

theorem pos_add_byteLength (h : m.Standing before taken rest) :
    m.pos + byteLength rest = m.source.utf8ByteSize := by
  rw [h.pos_eq, ← byteLength_append, ← h.source_eq, byteLength_toList]

theorem isValid_start (h : m.Standing before taken rest) :
    String.Pos.Raw.IsValid m.source ⟨m.start⟩ := by
  rw [h.start_eq]
  exact isValid_byteLength (h.source_eq.trans (List.append_assoc _ _ _))

theorem isValid_pos (h : m.Standing before taken rest) :
    String.Pos.Raw.IsValid m.source ⟨m.pos⟩ := by
  rw [h.pos_eq]
  exact isValid_byteLength h.source_eq

theorem atEnd_iff (h : m.Standing before taken rest) : m.atEnd = true ↔ rest = [] := by
  have htotal := h.pos_add_byteLength
  rw [atEnd, decide_eq_true_iff]
  cases rest with
  | nil => simpa using Nat.le_of_eq htotal.symm
  | cons c rest =>
    have hpos := byteLength_pos (List.cons_ne_nil c rest)
    simp only [reduceCtorEq, iff_false]
    omega

/-- The slice behind the position does not fail. -/
theorem ahead? (h : m.Standing before taken rest) : m.ahead? = some rest := by
  have hsource : m.source.toList = before ++ taken ++ rest ++ [] := by
    rw [List.append_nil, h.source_eq]
  have hslice := slice?_eq_some hsource
  rw [← h.source_eq, byteLength_toList, ← h.pos_eq] at hslice
  rw [Cursor.ahead?, hslice, Option.map_some, String.toList_ofList]

theorem peek? (h : m.Standing before taken rest) : m.peek? = some rest.head? := by
  rw [Cursor.peek?, h.ahead?, Option.map_some]

theorem peekSecond? (h : m.Standing before taken rest) : m.peekSecond? = some rest[1]? := by
  rw [Cursor.peekSecond?, h.ahead?, Option.map_some]

/-- The slice of the element does not fail. -/
theorem lexeme? (h : m.Standing before taken rest) :
    m.lexeme? = some (String.ofList taken) := by
  rw [Cursor.lexeme?, h.start_eq, h.pos_eq]
  exact slice?_eq_some h.source_eq

theorem push? (h : m.Standing before taken rest) (kind : Kind) (literal : Option Literal) :
    m.push? kind literal =
      some { m with
        tokens := m.tokens ++ [⟨kind, String.ofList taken, literal, m.startLine⟩]
        log := m.log ++
          [Event.record (.token ⟨kind, String.ofList taken, literal, m.startLine⟩)] } := by
  rw [Cursor.push?, h.lexeme?]
  rfl

/-- The slice between two characters of one byte does not fail. -/
theorem body? {first last : Char} {body : List Char}
    (h : m.Standing before (first :: body ++ [last]) rest) (hfirst : first.utf8Size = 1)
    (hlast : last.utf8Size = 1) :
    slice? m.source (m.start + 1) (m.pos - 1) = some (String.ofList body) := by
  have hsource : m.source.toList = before ++ [first] ++ body ++ (last :: rest) := by
    rw [h.source_eq]
    simp
  have hstart : m.start + 1 = byteLength (before ++ [first]) := by
    rw [h.start_eq]
    simp [hfirst]
  have hstop : m.pos - 1 = byteLength (before ++ [first] ++ body) := by
    rw [h.pos_eq]
    simp [hfirst, hlast]
    omega
  rw [hstart, hstop]
  exact slice?_eq_some hsource

theorem advance? {c : Char} (h : m.Standing before taken (c :: rest)) :
    m.advance? = some (some c, { m with pos := m.pos + c.utf8Size }) := by
  rw [Cursor.advance?, h.peek?]
  rfl

theorem accept? (h : m.Standing before taken rest) (expected : Char) :
    m.accept? expected =
      some (if rest.head? = some expected then
        (true, { m with pos := m.pos + expected.utf8Size }) else (false, m)) := by
  rw [Cursor.accept?, h.peek?]
  simp only [Option.bind_eq_bind, Option.bind_some, Option.pure_def]
  split <;> rfl

end Standing

end Cursor

end LoxScan
