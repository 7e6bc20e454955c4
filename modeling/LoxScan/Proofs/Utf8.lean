/-
Texts as bytes.

* `utf8` — the bytes of a text;
* `decode?_eq_some_iff` — decoding is the inverse of that;
* `splitOn_induction` — induction on the pieces of a list between separators;
* `AsciiByte` — a byte that is a character by itself;
* `splitOn_utf8`, `dropFinal_utf8` — cutting bytes at such a byte is cutting the text at the
  character;
* `rawLines_utf8` — so the lines of an input are the bytes of the lines of its text.

Design notes: a character beyond ASCII has only bytes from 128 on, so the bytes of a newline and of a
carriage return occur nowhere but as these characters.
-/
import LoxScan.CommandLine.Prompt

namespace LoxScan

/-- The bytes of the text in UTF-8. -/
def utf8 (s : List Char) : List UInt8 := s.flatMap String.utf8EncodeChar

@[simp] theorem utf8_nil : utf8 [] = [] := rfl

@[simp] theorem utf8_cons (c : Char) (s : List Char) :
    utf8 (c :: s) = String.utf8EncodeChar c ++ utf8 s := rfl

@[simp] theorem utf8_singleton (c : Char) : utf8 [c] = String.utf8EncodeChar c :=
  List.append_nil _

@[simp] theorem utf8_append (s t : List Char) : utf8 (s ++ t) = utf8 s ++ utf8 t :=
  List.flatMap_append

theorem toByteArray_eq_utf8 (source : String) :
    source.toByteArray.data.toList = utf8 source.toList := by
  have hbytes := String.toByteArray_ofList (l := source.toList)
  rw [String.ofList_toList] at hbytes
  rw [hbytes]
  exact List.toList_data_toByteArray

theorem utf8ByteSize_eq (source : String) :
    source.utf8ByteSize = (utf8 source.toList).length := by
  rw [← toByteArray_eq_utf8]
  exact (Array.length_toList).symm

/-- **Decoding** gives the text of which the bytes are those. -/
theorem decode?_eq_some_iff {bytes : List UInt8} {source : String} :
    decode? bytes = some source ↔ bytes = utf8 source.toList := by
  rw [← toByteArray_eq_utf8, decode?, String.fromUTF8?]
  constructor
  · intro h
    split at h
    · cases h
      exact List.toList_data_toByteArray.symm
    · exact absurd h (by simp)
  · rintro rfl
    have hbytes : source.toByteArray.data.toList.toByteArray = source.toByteArray :=
      ByteArray.ext (Array.toList_inj.mp List.toList_data_toByteArray)
    have hvalid : source.toByteArray.data.toList.toByteArray.IsValidUTF8 := by
      rw [hbytes]
      exact source.isValidUTF8
    rw [dif_pos hvalid, Option.some.injEq, ← String.toByteArray_inj]
    exact hbytes

@[simp] theorem decode?_utf8 (s : List Char) : decode? (utf8 s) = some (String.ofList s) :=
  decode?_eq_some_iff.mpr (by rw [String.toList_ofList])

/-- Induction on the pieces of a list: it has no separator, or it is a piece, a separator and the
other pieces. -/
@[elab_as_elim]
theorem splitOn_induction {α : Type} (c : α) {motive : List α → Prop}
    (whole : ∀ s, c ∉ s → motive s)
    (piece : ∀ first rest, c ∉ first → motive rest → motive (first ++ c :: rest)) (s : List α) :
    motive s := by
  induction h : s.length using Nat.strongRecOn generalizing s with
  | ind n ih =>
    by_cases hmem : c ∈ s
    · obtain ⟨first, rest, rfl, hfirst⟩ := List.eq_append_cons_of_mem hmem
      exact piece first rest hfirst (ih rest.length (by simp at h; omega) rest rfl)
    · exact whole s hmem

/-- No piece holds what separates the pieces. -/
theorem not_mem_of_mem_splitOn {α : Type} [BEq α] [LawfulBEq α] {c : α} {s piece : List α}
    (h : piece ∈ s.splitOn c) : c ∉ piece := by
  induction s using splitOn_induction c with
  | whole s hs =>
    rw [List.splitOn_eq_singleton hs, List.mem_singleton] at h
    rw [h]
    exact hs
  | piece first rest hfirst ih =>
    rw [List.splitOn_append_cons_self_of_not_mem hfirst, List.mem_cons] at h
    rcases h with rfl | hlater
    · exact hfirst
    · exact ih hlater

/-! ### Bytes that are characters -/

/-- The byte is this character by itself. -/
structure AsciiByte (b : UInt8) (c : Char) : Prop where
  ascii : b.toNat < 128
  code : c.toNat = b.toNat

theorem AsciiByte.utf8EncodeChar {b : UInt8} {c : Char} (hb : AsciiByte b c) :
    String.utf8EncodeChar c = [b] := by
  obtain ⟨hascii, hcode⟩ := hb
  have hcode : c.val.toNat = b.toNat := hcode
  have hsize : c.utf8Size = 1 := by
    rw [Char.utf8Size_eq_one_iff, UInt32.le_iff_toNat_le, hcode]
    exact Nat.le_of_lt_succ hascii
  have hbyte : c.val.toUInt8 = b := by
    rw [← UInt8.toNat_inj, UInt32.toNat_toUInt8, hcode]
    exact Nat.mod_eq_of_lt (Nat.lt_trans hascii (by decide))
  rw [String.utf8EncodeChar_eq_singleton hsize, hbyte]

theorem high_or (x : UInt8) {y : UInt8} (h : 128 ≤ y.toNat) : 128 ≤ (x ||| y).toNat := by
  rw [UInt8.toNat_or]
  exact Nat.le_trans h Nat.right_le_or

/-- A character is a byte of ASCII, or all its bytes are beyond that. -/
theorem asciiByte_or_high (c : Char) :
    (∃ b, AsciiByte b c) ∨ ∀ b ∈ String.utf8EncodeChar c, 128 ≤ b.toNat := by
  rcases c.utf8Size_eq with h | h | h | h
  · left
    have hascii : c.toNat ≤ 127 := UInt32.le_iff_toNat_le.mp (Char.utf8Size_eq_one_iff.mp h)
    have hbyte : (UInt8.ofNat c.toNat).toNat = c.toNat := UInt8.toNat_ofNat_of_lt' (by
      show c.toNat < 256
      omega)
    exact ⟨UInt8.ofNat c.toNat, by omega, hbyte.symm⟩
  · right
    rw [String.utf8EncodeChar_eq_cons_cons h]
    simp only [List.forall_mem_cons]
    exact ⟨high_or _ (by decide), high_or _ (by decide), by simp⟩
  · right
    rw [String.utf8EncodeChar_eq_cons_cons_cons h]
    simp only [List.forall_mem_cons]
    exact ⟨high_or _ (by decide), high_or _ (by decide), high_or _ (by decide), by simp⟩
  · right
    rw [String.utf8EncodeChar_eq_cons_cons_cons_cons h]
    simp only [List.forall_mem_cons]
    exact ⟨high_or _ (by decide), high_or _ (by decide), high_or _ (by decide),
      high_or _ (by decide), by simp⟩

section

variable {b : UInt8} {c : Char} (hb : AsciiByte b c)

include hb

/-- The byte is in no other character. -/
theorem AsciiByte.eq_of_mem {d : Char} (h : b ∈ String.utf8EncodeChar d) : d = c := by
  rcases asciiByte_or_high d with ⟨b', hd⟩ | hhigh
  · rw [hd.utf8EncodeChar, List.mem_singleton] at h
    subst h
    exact Char.toNat_inj.mp (hd.code.trans hb.code.symm)
  · have hascii := hb.ascii
    have hbeyond := hhigh b h
    omega

theorem mem_utf8_iff {s : List Char} : b ∈ utf8 s ↔ c ∈ s := by
  constructor
  · intro h
    obtain ⟨d, hd, hmem⟩ := List.mem_flatMap.mp h
    rwa [← hb.eq_of_mem hmem]
  · intro h
    exact List.mem_flatMap.mpr ⟨c, h, by rw [hb.utf8EncodeChar]; exact List.mem_singleton_self b⟩

/-- **Cutting bytes** where the byte stands is cutting the text where the character stands. -/
theorem splitOn_utf8 (s : List Char) : (utf8 s).splitOn b = (s.splitOn c).map utf8 := by
  induction s using splitOn_induction c with
  | whole s hmem =>
    have hnone : b ∉ utf8 s := fun hb' => hmem ((mem_utf8_iff hb).mp hb')
    rw [List.splitOn_eq_singleton hnone, List.splitOn_eq_singleton hmem, List.map_singleton]
  | piece first rest hfirst ih =>
    have hbytes : utf8 (first ++ c :: rest) = utf8 first ++ b :: utf8 rest := by
      rw [utf8_append, utf8_cons, hb.utf8EncodeChar, List.singleton_append]
    have hnone : b ∉ utf8 first := fun hb' => hfirst ((mem_utf8_iff hb).mp hb')
    rw [hbytes, List.splitOn_append_cons_self_of_not_mem hnone,
      List.splitOn_append_cons_self_of_not_mem hfirst, ih, List.map_cons]

/-- Dropping the byte at the end is dropping the character at the end. -/
theorem dropFinal_utf8 (s : List Char) : dropFinal b (utf8 s) = utf8 (dropFinal c s) := by
  rcases List.eq_nil_or_concat s with rfl | ⟨s, d, rfl⟩
  · rfl
  · rw [List.concat_eq_append, utf8_append, utf8_singleton]
    by_cases hd : d = c
    · rw [hd, hb.utf8EncodeChar, dropFinal_append_self, dropFinal_append_self]
    · have hother : c ∉ [d] := by simpa using Ne.symm hd
      have hbytes : b ∉ String.utf8EncodeChar d := fun hmem => hd (hb.eq_of_mem hmem)
      rw [dropFinal_append_of_not_mem String.utf8EncodeChar_ne_nil hbytes,
        dropFinal_append_of_not_mem (by simp) hother, utf8_append, utf8_singleton]

end

/-! ### The lines of an input -/

/-- The lines of an input as sources.  A line loses its newline and one carriage return right before
it; what stands behind the last newline is a line if it is not empty. -/
def inputLines (s : List Char) : List String :=
  let pieces := s.splitOn '\n'
  (pieces.dropLast.map (dropFinal '\r') ++ (pieces.getLast?.filter (· ≠ [])).toList).map
    String.ofList

theorem newlineByte_ascii : AsciiByte Prompt.newlineByte '\n' := ⟨by decide, rfl⟩

theorem returnByte_ascii : AsciiByte Prompt.returnByte '\r' := ⟨by decide, rfl⟩

/-- **The lines of an input** are the bytes of the lines of its text. -/
theorem rawLines_utf8 (s : List Char) :
    Prompt.rawLines (utf8 s) = (inputLines s).map fun line => utf8 line.toList := by
  have hfull : ((s.splitOn '\n').map utf8).dropLast.map (dropFinal Prompt.returnByte) =
      ((s.splitOn '\n').dropLast.map (dropFinal '\r')).map utf8 := by
    simp only [List.map_dropLast, List.map_map, Function.comp_def, dropFinal_utf8 returnByte_ascii]
  have hlast : ((s.splitOn '\n').map utf8).getLast?.filter (· ≠ []) =
      ((s.splitOn '\n').getLast?.filter (· ≠ [])).map utf8 := by
    rw [List.getLast?_map]
    cases (s.splitOn '\n').getLast? with
    | none => rfl
    | some piece => cases piece <;> simp [Option.filter, String.utf8EncodeChar_ne_nil]
  rw [Prompt.rawLines, inputLines, splitOn_utf8 newlineByte_ascii, hfull, hlast,
    Option.toList_map, ← List.map_append, List.map_map]
  simp only [Function.comp_def, String.toList_ofList]

/-- The first newline ends the first line. -/
theorem inputLines_append_newline {first : List Char} (h : '\n' ∉ first) (rest : List Char) :
    inputLines (first ++ '\n' :: rest) =
      String.ofList (dropFinal '\r' first) :: inputLines rest := by
  have hne : rest.splitOn '\n' ≠ [] := List.splitOn_ne_nil _ _
  rw [inputLines, List.splitOn_append_cons_self_of_not_mem h, List.dropLast_cons_of_ne_nil hne,
    List.getLast?_cons_of_ne_nil hne, List.map_cons, List.cons_append, List.map_cons, inputLines]

/-- A text without a newline is one line, unless it is empty. -/
theorem inputLines_of_not_mem {s : List Char} (h : '\n' ∉ s) :
    inputLines s = if s = [] then [] else [String.ofList s] := by
  rw [inputLines, List.splitOn_eq_singleton h]
  cases s <;> rfl

end LoxScan
