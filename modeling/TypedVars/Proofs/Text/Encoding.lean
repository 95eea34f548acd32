import Mathlib.Tactic.SplitIfs
import TypedVars.Text.Basic

/-!
# Texts as code points and as bytes

Texts are ordered by their first difference. Because characters are compared by their code points,
this is the lexicographic order of the code points. It is the order of the bytes in UTF-8 as well: a
character with more bytes begins with a greater one, and of two characters with equally many bytes
the bytes hold the digits of the code points, the higher ones first.
-/

set_option autoImplicit false

namespace TypedVars.Text

/-- The code points of a text. -/
def codePoints (text : Text) : List Nat := text.map Char.toNat

/-- The bytes of a text in UTF-8. -/
def bytes (text : Text) : List UInt8 := text.flatMap String.utf8EncodeChar

/-- Texts with the same code points are the same. -/
theorem codePoints_inj {left right : Text} : codePoints left = codePoints right ↔ left = right :=
  List.map_inj_right fun _ _ => Char.toNat_inj.1

/-- The first code points decide the order unless they are the same. -/
theorem codePoints_cons_lt_iff {c d : Char} {left right : Text} :
    codePoints (c :: left) < codePoints (d :: right) ↔
      c.toNat < d.toNat ∨ c = d ∧ codePoints left < codePoints right := by
  rw [← Char.toNat_inj]
  exact List.cons_lt_cons_iff

/-- The bytes of a text are those of its first character and those of the rest. -/
theorem bytes_cons (c : Char) (text : Text) :
    bytes (c :: text) = String.utf8EncodeChar c ++ bytes text := List.flatMap_cons

/-! ## Comparing characters from the front -/

/-- Texts are ordered by their code points. -/
theorem lt_iff_codePoints_lt (left right : Text) :
    left < right ↔ codePoints left < codePoints right := by
  induction left generalizing right with
  | nil => cases right <;> simp [codePoints]
  | cons c left ih =>
    cases right with
    | nil => simp [codePoints]
    | cons d right =>
      rw [List.cons_lt_cons_iff, codePoints_cons_lt_iff, ih]
      rfl

/-- Characters are ordered by their code points. -/
theorem compare_char_eq_lt_iff (c d : Char) : compare c d = .lt ↔ c.toNat < d.toNat := by
  have hcompare : compare c d = compareOfLessAndEq c d := rfl
  rw [hcompare, compareOfLessAndEq_eq_lt, Char.lt_def, UInt32.lt_iff_toNat_lt]
  rfl

/-- Texts are compared by their code points. -/
theorem compare_eq_lt_iff (left right : Text) :
    compare left right = .lt ↔ codePoints left < codePoints right := by
  induction left generalizing right with
  | nil => cases right <;> simp [codePoints]
  | cons c left ih =>
    cases right with
    | nil => simp [codePoints]
    | cons d right =>
      rw [List.compare_cons_cons, codePoints_cons_lt_iff, ← compare_char_eq_lt_iff, ← ih right]
      cases hfirst : compare c d with
      | lt => simp
      | eq => simp [Std.LawfulEqCmp.eq_of_compare hfirst]
      | gt =>
        have hne : c ≠ d := by
          rintro rfl
          simp at hfirst
        simp [hne]

/-! ## Comparing bytes -/

/-- No code point is above the last one of Unicode. -/
theorem codePoint_lt (c : Char) : c.toNat < 0x110000 := by
  rcases c.valid with hlow | ⟨-, hhigh⟩
  · exact Nat.lt_trans hlow (by decide)
  · exact hhigh

/-- The bytes of a character come before those of a greater one, whatever follows them. -/
theorem utf8EncodeChar_append_lt {c d : Char} (h : c.toNat < d.toNat) (left right : List UInt8) :
    String.utf8EncodeChar c ++ left < String.utf8EncodeChar d ++ right := by
  have hc := codePoint_lt c
  have hd := codePoint_lt d
  have hbyte (n : Nat) (hn : n < 256) : (UInt8.ofNat n).toNat = n := UInt8.toNat_ofNat_of_lt' hn
  -- behind the first byte each byte holds one digit to the base of 64
  have hdigits (n : Nat) : n / 4096 = n / 64 / 64 ∧ n / 262144 = n / 64 / 64 / 64 := by
    simp only [Nat.div_div_eq_div_mul, Nat.reduceMul, and_self]
  simp only [String.utf8EncodeChar, Char.toNat, (hdigits _).1, (hdigits _).2] at *
  generalize c.val.toNat = low at *
  generalize d.val.toNat = high at *
  split_ifs <;>
    simp (disch := omega) only [List.cons_append, List.nil_append, List.cons_lt_cons_iff,
      UInt8.lt_iff_toNat_lt, ← UInt8.toNat_inj, hbyte] <;>
    omega

/-- Bytes in common at the start do not count for the order. -/
theorem append_lt_append_left_iff (front left right : List UInt8) :
    front ++ left < front ++ right ↔ left < right := by
  induction front with
  | nil => rfl
  | cons byte front ih => rw [List.cons_append, List.cons_append, List.cons_lt_cons_self, ih]

/-- The order of the code points is that of the bytes. -/
theorem codePoints_lt_iff_bytes_lt (left right : Text) :
    codePoints left < codePoints right ↔ bytes left < bytes right := by
  induction left generalizing right with
  | nil =>
    cases right with
    | nil => simp [codePoints, bytes]
    | cons d right =>
      obtain ⟨byte, others, hencode⟩ :=
        List.exists_cons_of_ne_nil (String.utf8EncodeChar_ne_nil (c := d))
      rw [bytes_cons, hencode]
      simp [codePoints, bytes]
  | cons c left ih =>
    cases right with
    | nil => simp [codePoints, bytes]
    | cons d right =>
      rw [codePoints_cons_lt_iff, bytes_cons, bytes_cons]
      rcases Nat.lt_trichotomy c.toNat d.toNat with hlt | heq | hgt
      · simp [hlt, utf8EncodeChar_append_lt hlt]
      · obtain rfl := Char.toNat_inj.1 heq
        simp [append_lt_append_left_iff, ih right]
      · have hne : c ≠ d := by
          rintro rfl
          exact Nat.lt_irrefl _ hgt
        have hbytes := List.lt_asymm (utf8EncodeChar_append_lt hgt (bytes right) (bytes left))
        simp [hne, hbytes, Nat.le_of_lt hgt]

end TypedVars.Text
