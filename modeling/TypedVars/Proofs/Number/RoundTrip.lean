import TypedVars.Proofs.Number.Positional
import TypedVars.Proofs.Number.Shortest
import TypedVars.Proofs.Number.Written

/-!
# Written numbers are read back

A layout puts the digits of a decimal at their places, so that the text is read as a decimal of the
same value, wherever the point stands and whether or not a power of ten is written. The digits of a
number read back to it, and so does its text, with its sign and with infinity. Only what is no
number is left out.
-/

set_option autoImplicit false

namespace TypedVars

open Digits (IsDigits isDigits_ofNat ofNat ofNat_ne_nil toNat)
open Numeral (IsBody decimalOf? decimalOf?_point decimalOf?_whole)

/-! ## The number of digits -/

namespace Digits

/-- Digits in front of others count by the places behind them. -/
theorem toNat_append (left right : Text) :
    toNat (left ++ right) = toNat left * 10 ^ right.length + toNat right := by
  simp only [toNat_eq_positional, positional, List.reverse_append, List.map_append,
    Nat.ofDigits_append, List.length_map, List.length_reverse]
  ring

/-- Zeros are read as zero. -/
theorem toNat_zeros (count : Nat) : toNat (List.replicate count '0') = 0 := by
  induction count with
  | zero => rfl
  | succ count ih =>
    rw [List.replicate_succ', toNat_append_singleton, ih]
    rfl

/-- Zeros behind digits count as powers of ten. -/
theorem toNat_append_zeros (digits : Text) (count : Nat) :
    toNat (digits ++ List.replicate count '0') = toNat digits * 10 ^ count := by
  rw [toNat_append, toNat_zeros, List.length_replicate, Nat.add_zero]

/-- Zeros in front of digits do not count. -/
theorem toNat_zeros_append (count : Nat) (digits : Text) :
    toNat (List.replicate count '0' ++ digits) = toNat digits := by
  rw [toNat_append, toNat_zeros, Nat.zero_mul, Nat.zero_add]

end Digits

/-- Zeros can be moved from the exponent to the coefficient. -/
theorem Decimal.value_zeros (coefficient count : Nat) (exponent : Int) :
    Decimal.value ⟨coefficient * 10 ^ count, exponent - count⟩ =
      Decimal.value ⟨coefficient, exponent⟩ := by
  unfold value
  dsimp only
  rw [zpow_sub₀ (by norm_num), zpow_natCast]
  push_cast
  field_simp

/-! ## Reading a layout -/

namespace Layout

/-- A text is read as a decimal that has a given value. -/
def ReadsAs (text : Text) (value : ℚ) : Prop :=
  ∃ d, decimalOf? text = some d ∧ d.value = value

/-- Digits alone are read as a whole number. -/
theorem readsAs_whole {digits : Text} (hne : digits ≠ []) (hdigits : IsDigits digits) :
    ReadsAs digits (Decimal.value ⟨toNat digits, 0⟩) := by
  have hread := decimalOf?_whole hne hdigits .absent
  rw [List.append_nil] at hread
  exact ⟨_, hread, rfl⟩

/-- Digits around a point are read with the part behind it as a fraction. -/
theorem readsAs_point (whole part : Text) (hne : whole ≠ [] ∨ part ≠ []) (hwhole : IsDigits whole)
    (hpart : IsDigits part) :
    ReadsAs (whole ++ '.' :: part)
      (Decimal.value ⟨toNat (whole ++ part), -(part.length : Int)⟩) := by
  have hread := decimalOf?_point hne hwhole hpart .absent
  rw [List.append_nil] at hread
  refine ⟨_, hread, ?_⟩
  dsimp only
  rw [Int.zero_sub]

/-- Spread digits are read with the exponent that they are spread by. -/
theorem readsAs_spread {digits : Text} (hne : digits ≠ []) (hdigits : IsDigits digits)
    (keepsPoint : Bool) (exponent : Int) :
    ReadsAs (spread keepsPoint digits exponent) (Decimal.value ⟨toNat digits, exponent⟩) := by
  unfold spread
  split
  · next zeros =>
    have hwhole : IsDigits (digits ++ List.replicate zeros '0') :=
      hdigits.append (isDigits_zeros zeros)
    cases keepsPoint with
    | true =>
      have hread := readsAs_point _ (List.replicate 1 '0') (.inr (by simp)) hwhole
        (isDigits_zeros 1)
      have hzeros : digits ++ List.replicate zeros '0' ++ List.replicate 1 '0' =
          digits ++ List.replicate (zeros + 1) '0' := by
        rw [List.append_assoc, ← List.replicate_add]
      have hexponent : -((List.replicate 1 '0').length : Int) = zeros - (zeros + 1 : Nat) := by
        simp
      rwa [hzeros, Digits.toNat_append_zeros, hexponent, Decimal.value_zeros] at hread
    | false =>
      have hread := readsAs_whole (by simp [hne]) hwhole
      have hexponent : (0 : Int) = zeros - zeros := by simp
      rw [Digits.toNat_append_zeros, hexponent, Decimal.value_zeros] at hread
      rwa [if_neg Bool.false_ne_true, List.append_nil]
  · next e =>
    split
    · next hlong =>
      have hpartNe : digits.drop (digits.length - (e + 1)) ≠ [] := by
        rw [Ne, List.drop_eq_nil_iff]
        omega
      have hread := readsAs_point (digits.take (digits.length - (e + 1))) _ (.inr hpartNe)
        (fun c hc => hdigits c (List.mem_of_mem_take hc))
        (fun c hc => hdigits c (List.mem_of_mem_drop hc))
      have hexponent : -((digits.drop (digits.length - (e + 1))).length : Int) = Int.negSucc e := by
        rw [List.length_drop]
        omega
      rwa [List.take_append_drop, hexponent] at hread
    · next hshort =>
      have hpart : IsDigits (List.replicate (e + 1 - digits.length) '0' ++ digits) :=
        (isDigits_zeros _).append hdigits
      have hread := readsAs_point _ _ (.inr (by simp [hne])) (isDigits_zeros 1) hpart
      have hexponent : -((List.replicate (e + 1 - digits.length) '0' ++ digits).length : Int) =
          Int.negSucc e := by
        rw [List.length_append, List.length_replicate]
        omega
      rwa [Digits.toNat_zeros_append, Digits.toNat_zeros_append, hexponent] at hread

/-- Digits in scientific form are read with their exponent. -/
theorem readsAs_scientific {digits : Text} (hne : digits ≠ []) (hdigits : IsDigits digits)
    (exponent : Int) :
    ReadsAs (scientific digits exponent) (Decimal.value ⟨toNat digits, exponent⟩) := by
  unfold scientific
  split
  · exact absurd rfl hne
  · next digit =>
    have hread := decimalOf?_whole hne hdigits
      (Numeral.isExponent_ofInt (exponent + [digit].length - 1))
    rw [Numeral.exponentOf?_ofInt] at hread
    refine ⟨_, hread, ?_⟩
    congr 2
    simp
  · next digit others _ =>
    have hothers : IsDigits others := fun c hc => hdigits c (List.mem_cons_of_mem _ hc)
    have hdigit : IsDigits [digit] := fun c hc => hdigits c (by simp_all)
    have hread := decimalOf?_point (.inl (by simp)) hdigit hothers
      (Numeral.isExponent_ofInt (exponent + (digit :: others).length - 1))
    rw [Numeral.exponentOf?_ofInt] at hread
    refine ⟨_, hread, ?_⟩
    congr 2
    simp
    omega

/-- A layout is read as a decimal of the same value. -/
theorem readsAs_decimalText (layout : Layout) (d : Decimal) :
    ReadsAs (layout.decimalText d) d.value := by
  have hne := ofNat_ne_nil d.coefficient
  have hdigits := isDigits_ofNat d.coefficient
  have either (plain : Bool) :
      ReadsAs (if plain then spread layout.keepsPoint (ofNat d.coefficient) d.exponent
        else scientific (ofNat d.coefficient) d.exponent)
        (Decimal.value ⟨toNat (ofNat d.coefficient), d.exponent⟩) := by
    cases plain with
    | true => exact readsAs_spread hne hdigits _ _
    | false => exact readsAs_scientific hne hdigits _
  rw [Digits.toNat_ofNat] at either
  exact either _

end Layout

/-! ## Reading numbers -/

namespace Layout

variable {F : Format}

/-- A printed finite number is split into its sign and the decimal text of its rank. -/
theorem splitSign_text (layout : Layout) (negative : Bool) (rank : Fin F.count) :
    Digits.splitSign (layout.text (.finite negative rank)) =
      (negative, layout.decimalText (F.shortest rank)) := by
  obtain ⟨mantissa, exponent, htext, hmantissa, hexponent⟩ :=
    layout.exists_decimalText (F.shortest rank)
  have hopens := (IsBody.decimal hmantissa hexponent).opensUnsigned
  rw [← htext] at hopens
  cases negative with
  | false => exact Digits.splitSign_of_opensUnsigned hopens
  | true => rfl

/-- A written number is read as that number. -/
theorem ofText?_text (hwide : F.Wide) (layout : Layout) {number : Binary F} (h : number ≠ .nan) :
    Binary.ofText? F (layout.text number) = some number := by
  cases number with
  | nan => exact absurd rfl h
  | infinity negative => cases negative <;> rfl
  | finite negative rank =>
    obtain ⟨d, hread, hvalue⟩ := layout.readsAs_decimalText (F.shortest rank)
    rw [Binary.ofText?, Numeral.ofText?_of_decimalOf? (layout.splitSign_text negative rank) hread,
      Option.map_some, Numeral.toBinary, Decimal.toBinary_congr hwide negative hvalue,
      Format.toBinary_shortest hwide]

end Layout

end TypedVars
