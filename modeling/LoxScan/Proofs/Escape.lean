/-
Escaped characters can be read back.

* `toDigits_sixteen_inj` — hexadecimal digits determine the number;
* `Escaped` — what may stand for a character: the character itself, a backslash and a letter, or its
  code point;
* `escaped_escape`, `escaped_quoted` — what does stand for it, with and without double quotes;
* `Escaped.append_inj` — at the start of a text at most one character can be escaped;
* `quote_injective` — so a quoted text determines the text;
* `Escaped.newline_not_mem` — no newline is ever shown.

Design notes: a single quote is shown as itself inside double quotes and with a backslash outside of
them.  The relation allows both, so one argument is enough for both ways of showing a character.
-/
import Mathlib.Logic.Function.Basic
import LoxScan.Proofs.Boundary
import LoxScan.Text.Escape

namespace LoxScan

/-! ### Hexadecimal digits -/

theorem digitChar_inj {m n : Nat} (hm : m < 16) (hn : n < 16) (h : m.digitChar = n.digitChar) :
    m = n := by
  have hall : ∀ m < 16, ∀ n < 16, m.digitChar = n.digitChar → m = n := by decide
  exact hall m hm n hn h

/-- Every digit is one of a number below the base. -/
theorem exists_digitChar {n : Nat} {c : Char} (h : c ∈ Nat.toDigits 16 n) :
    ∃ m < 16, c = m.digitChar := by
  induction n using Nat.strongRecOn with
  | ind n ih =>
    rw [Nat.toDigits_eq_if (by omega)] at h
    split at h
    · next hlt => exact ⟨n, hlt, List.mem_singleton.mp h⟩
    · rcases List.mem_append.mp h with hfirst | hlast
      · exact ih (n / 16) (by omega) hfirst
      · exact ⟨n % 16, by omega, List.mem_singleton.mp hlast⟩

theorem not_mem_toDigits_sixteen {c : Char} (hc : ∀ m < 16, c ≠ m.digitChar) (n : Nat) :
    c ∉ Nat.toDigits 16 n := by
  intro hmem
  obtain ⟨m, hm, heq⟩ := exists_digitChar hmem
  exact hc m hm heq

/-- **Hexadecimal digits determine the number.** -/
theorem toDigits_sixteen_inj {m n : Nat} (h : Nat.toDigits 16 m = Nat.toDigits 16 n) : m = n := by
  induction m using Nat.strongRecOn generalizing n with
  | ind m ih =>
    have hone : ∀ (k : Nat) (c d : Char), Nat.toDigits 16 k ++ [c] ≠ [d] := by
      intro k c d heq
      have hlength := congrArg List.length heq
      rw [List.length_append, List.length_singleton, List.length_singleton] at hlength
      have hempty : (Nat.toDigits 16 k).length = 0 := by omega
      exact Nat.toDigits_ne_nil (List.length_eq_zero_iff.mp hempty)
    rw [Nat.toDigits_eq_if (by omega), Nat.toDigits_eq_if (n := n) (by omega)] at h
    split at h
    · next hm =>
      split at h
      · next hn => exact digitChar_inj hm hn (List.singleton_inj.mp h)
      · exact absurd h.symm (hone _ _ _)
    · split at h
      · exact absurd h (hone _ _ _)
      · obtain ⟨hfirst, hlast⟩ := List.append_inj' h rfl
        have hquotient : m / 16 = n / 16 := ih (m / 16) (by omega) hfirst
        have hremainder : m % 16 = n % 16 :=
          digitChar_inj (by omega) (by omega) (List.singleton_inj.mp hlast)
        omega

/-! ### Escaped characters -/

/-- The character for which a letter behind a backslash stands. -/
def ofEscapeLetter : Char → Char
  | '0' => '\x00'
  | 't' => '\t'
  | 'r' => '\r'
  | 'n' => '\n'
  | letter => letter

theorem eq_ofEscapeLetter {c letter : Char} (h : escapeLetter? c = some letter) :
    c = ofEscapeLetter letter := by
  unfold escapeLetter? at h
  split at h <;> cases h <;> rfl

/-- No letter begins a code point, and none is a newline. -/
theorem escapeLetter_ne {c letter : Char} (h : escapeLetter? c = some letter) :
    letter ≠ 'u' ∧ letter ≠ '\n' := by
  unfold escapeLetter? at h
  split at h <;> cases h <;> decide

/-- The text may stand for the character. -/
inductive Escaped (c : Char) : List Char → Prop
  | plain : c ≠ '\\' → c ≠ '\n' → Escaped c [c]
  | letter {letter : Char} : escapeLetter? c = some letter → Escaped c ['\\', letter]
  | codePoint : Escaped c ('\\' :: 'u' :: '{' :: (Nat.toDigits 16 c.toNat ++ ['}']))

theorem escaped_escape (c : Char) : Escaped c (escape c) := by
  unfold escape
  split
  · next letter hletter => exact .letter hletter
  · next hnone =>
    split
    · exact .codePoint
    · refine .plain ?_ ?_
      · rintro rfl
        exact absurd hnone (by decide)
      · rintro rfl
        exact absurd hnone (by decide)

/-- The character as it stands between double quotes. -/
def quoted (c : Char) : List Char := if c = '\'' then [c] else escape c

theorem quote_eq (s : List Char) : quote s = '"' :: s.flatMap quoted ++ ['"'] := rfl

theorem escaped_quoted (c : Char) : Escaped c (quoted c) := by
  unfold quoted
  split
  · next hquote =>
    rw [hquote]
    exact .plain (by decide) (by decide)
  · exact escaped_escape c

namespace Escaped

variable {c d : Char} {p q s t : List Char}

theorem ne_nil (h : Escaped c p) : p ≠ [] := by
  cases h <;> exact List.cons_ne_nil _ _

theorem newline_not_mem (h : Escaped c p) : '\n' ∉ p := by
  intro hmem
  cases h with
  | plain _ hne => exact hne (List.mem_singleton.mp hmem).symm
  | letter hletter =>
    have hne := (escapeLetter_ne hletter).2
    simp only [List.mem_cons, List.not_mem_nil, or_false] at hmem
    exact hmem.elim (absurd · (by decide)) fun heq => hne heq.symm
  | codePoint =>
    have hdigits := not_mem_toDigits_sixteen (c := '\n') (by decide) c.toNat
    simp [hdigits] at hmem

/-- **At most one character** can be escaped at the start of a text. -/
theorem append_inj (hp : Escaped c p) (hq : Escaped d q) (h : p ++ s = q ++ t) :
    c = d ∧ s = t := by
  cases hp with
  | plain hc _ =>
    cases hq with
    | plain _ _ => exact List.cons.inj h
    | letter _ => exact absurd (List.cons.inj h).1 hc
    | codePoint => exact absurd (List.cons.inj h).1 hc
  | letter hletter =>
    have hu := (escapeLetter_ne hletter).1
    cases hq with
    | plain hd _ => exact absurd (List.cons.inj h).1.symm hd
    | letter hletter' =>
      obtain ⟨hsame, hrest⟩ := List.cons.inj (List.cons.inj h).2
      rw [eq_ofEscapeLetter hletter, hsame, ← eq_ofEscapeLetter hletter']
      exact ⟨rfl, hrest⟩
    | codePoint => exact absurd (List.cons.inj (List.cons.inj h).2).1 hu
  | codePoint =>
    cases hq with
    | plain hd _ => exact absurd (List.cons.inj h).1.symm hd
    | letter hletter' =>
      exact absurd (List.cons.inj (List.cons.inj h).2).1.symm (escapeLetter_ne hletter').1
    | codePoint =>
      -- the closing brace is no digit, so it ends the digits
      have hbrace := not_mem_toDigits_sixteen (c := '}') (by decide)
      simp only [List.cons_append, List.append_assoc, List.nil_append, List.cons.injEq,
        true_and] at h
      obtain ⟨hdigits, hsame⟩ := append_cons_inj (hbrace _) (hbrace _) h
      exact ⟨Char.toNat_inj.mp (toDigits_sixteen_inj hdigits), hsame⟩

end Escaped

/-- **A quoted text determines the text.** -/
theorem quote_injective : Function.Injective quote := by
  intro s t h
  rw [quote_eq, quote_eq] at h
  have hbody := (List.cons.inj (List.append_cancel_right h)).2
  refine flatMap_inj (P := fun _ => True) (fun c _ => (escaped_quoted c).ne_nil) ?_
    (fun _ _ => trivial) (fun _ _ => trivial) hbody
  intro c d _ _ _ _ happend
  exact (escaped_quoted c).append_inj (escaped_quoted d) happend

theorem newline_not_mem_quote (s : List Char) : '\n' ∉ quote s := by
  rw [quote_eq]
  intro hmem
  rcases List.mem_append.mp hmem with hmem | hmem
  · rcases List.mem_cons.mp hmem with heq | hbody
    · exact absurd heq (by decide)
    · obtain ⟨c, _, hc⟩ := List.mem_flatMap.mp hbody
      exact (escaped_quoted c).newline_not_mem hc
  · exact absurd (List.mem_singleton.mp hmem) (by decide)

end LoxScan
