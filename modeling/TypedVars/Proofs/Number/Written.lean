import TypedVars.Number.Layout
import TypedVars.Proofs.Number.Numeral

/-!
# Written numbers are numerals

Whatever a layout makes of a number is a numeral that can be read: digits, digits with a point
among them, digits with a power of ten, or one of the words. A sign is written in front of digits or
of the word for infinity only.
-/

set_option autoImplicit false

namespace TypedVars

open Digits (IsDigits ofInt ofNat)
open Numeral (IsBody IsExponent IsMantissa IsNumeral IsSign)
open Text (opensNumber)

/-- An integer is written by digits, with a sign or none in front. -/
theorem Digits.exists_digits_ofInt (n : Int) :
    ∃ sign digits, ofInt n = sign ++ digits ∧ IsSign sign ∧ digits ≠ [] ∧ IsDigits digits := by
  refine Numeral.toInt?_isSome_iff.1 ?_
  rw [Digits.toInt?_ofInt]
  rfl

/-- A printed integer is a numeral. -/
theorem Digits.isNumeral_ofInt (n : Int) : IsNumeral (ofInt n) := by
  obtain ⟨sign, digits, htext, hsign, hne, hdigits⟩ := Digits.exists_digits_ofInt n
  exact ⟨sign, digits, htext, hsign, (IsMantissa.whole hne hdigits).isBody⟩

/-- A mark and an integer are an exponent, which is read as that integer. -/
theorem Numeral.exponentOf?_ofInt (n : Int) : exponentOf? ('e' :: ofInt n) = some n := by
  rw [exponentOf?, if_pos (.inl rfl), Digits.toInt?_ofInt]

/-- A printed integer behind the mark is an exponent. -/
theorem Numeral.isExponent_ofInt (n : Int) : IsExponent ('e' :: ofInt n) := by
  apply exponentOf?_isSome_iff.1
  rw [exponentOf?_ofInt]
  rfl

namespace Layout

/-- Zeros are digits. -/
theorem isDigits_zeros (count : Nat) : IsDigits (List.replicate count '0') := by
  intro c hc
  rw [(List.mem_replicate.1 hc).2]
  decide

/-- Spread digits are a mantissa. -/
theorem isMantissa_spread {digits : Text} (hne : digits ≠ []) (hdigits : IsDigits digits)
    (keepsPoint : Bool) (exponent : Int) : IsMantissa (spread keepsPoint digits exponent) := by
  unfold spread
  split
  · next zeros =>
    have hwhole : IsDigits (digits ++ List.replicate zeros '0') :=
      hdigits.append (isDigits_zeros zeros)
    cases keepsPoint with
    | true => exact .point (.inl (by simp [hne])) hwhole (isDigits_zeros 1)
    | false =>
      rw [if_neg (by simp), List.append_nil]
      exact .whole (by simp [hne]) hwhole
  · next e =>
    split
    · next hlong =>
      -- some digit stands in front of the point
      have hwhole : digits.take (digits.length - (e + 1)) ≠ [] := by
        rw [Ne, List.take_eq_nil_iff]
        have : 0 < digits.length - (e + 1) := by omega
        simp only [hne, or_false]
        omega
      exact .point (.inl hwhole) (fun c hc => hdigits c (List.mem_of_mem_take hc))
        fun c hc => hdigits c (List.mem_of_mem_drop hc)
    · have hpart : IsDigits (List.replicate (e + 1 - digits.length) '0' ++ digits) :=
        (isDigits_zeros _).append hdigits
      have hzero : IsDigits ['0'] := isDigits_zeros 1
      exact .point (.inl (by simp)) hzero hpart

/-- Scientific form is a mantissa and an exponent. -/
theorem exists_scientific {digits : Text} (hne : digits ≠ []) (hdigits : IsDigits digits)
    (exponent : Int) : ∃ mantissa power, scientific digits exponent = mantissa ++ power ∧
      IsMantissa mantissa ∧ IsExponent power := by
  have hpower := Numeral.isExponent_ofInt (exponent + digits.length - 1)
  unfold scientific
  split
  · exact absurd rfl hne
  · next digit => exact ⟨[digit], _, rfl, .whole (by simp) hdigits, hpower⟩
  · next digit others _ =>
    have hothers : IsDigits others := fun c hc => hdigits c (List.mem_cons_of_mem _ hc)
    have hdigit : IsDigits [digit] := fun c hc => hdigits c (by simp_all)
    exact ⟨[digit] ++ '.' :: others, _, by simp, .point (.inl (by simp)) hdigit hothers, hpower⟩

/-- In each layout a decimal is printed as a mantissa and an exponent. -/
theorem exists_decimalText (layout : Layout) (d : Decimal) :
    ∃ mantissa exponent, layout.decimalText d = mantissa ++ exponent ∧ IsMantissa mantissa ∧
      IsExponent exponent := by
  have hne := Digits.ofNat_ne_nil d.coefficient
  have hdigits := Digits.isDigits_ofNat d.coefficient
  have either (plain : Bool) : ∃ mantissa exponent,
      (if plain then spread layout.keepsPoint (Digits.ofNat d.coefficient) d.exponent
        else scientific (Digits.ofNat d.coefficient) d.exponent) = mantissa ++ exponent ∧
        IsMantissa mantissa ∧ IsExponent exponent := by
    cases plain with
    | true =>
      exact ⟨_, [], (List.append_nil _).symm, isMantissa_spread hne hdigits _ _, .absent⟩
    | false => exact exists_scientific hne hdigits d.exponent
  exact either _

/-- A written number is a sign or none and a body, and the body of a negative number opens a number
unless it is the word for infinity. -/
theorem exists_text {F : Format} (layout : Layout) (number : Binary F) :
    ∃ sign body, layout.text number = sign ++ body ∧ IsSign sign ∧ IsBody body ∧
      (sign = [] ∨ opensNumber body = true ∨ layout.text number = ['-', 'i', 'n', 'f']) := by
  cases number with
  | nan => exact ⟨[], ['N', 'a', 'N'], rfl, .inl rfl, .word (by decide), .inl rfl⟩
  | infinity negative =>
    have hbody : IsBody ['i', 'n', 'f'] := .word (by decide)
    cases negative with
    | false => exact ⟨[], _, rfl, .inl rfl, hbody, .inl rfl⟩
    | true => exact ⟨['-'], _, rfl, .inr (.inr rfl), hbody, .inr (.inr rfl)⟩
  | finite negative rank =>
    obtain ⟨mantissa, exponent, htext, hmantissa, hexponent⟩ :=
      layout.exists_decimalText (F.shortest rank)
    have hopens := hmantissa.opensNumber_append exponent
    refine ⟨if negative then ['-'] else [], mantissa ++ exponent, ?_, ?_,
      .decimal hmantissa hexponent, .inr (.inl hopens)⟩
    · rw [text, htext]
    · cases negative with
      | false => exact .inl rfl
      | true => exact .inr (.inr rfl)

end Layout

end TypedVars
