import TypedVars.Proofs.Number.Integral

/-!
# Rounding beside truncating

Truncating a number leaves its whole part. Rounding it gives the same integer or the next one away
from zero, and a different one only below `2 ^ fraction`, because every magnitude from there on is
whole. So one of the two integers is beyond a greater bound exactly when the other one is.
-/

set_option autoImplicit false

namespace TypedVars

/-- A quotient is rounded to its whole part or to the number above. -/
theorem div_le_rounded_div (u : Nat) {one : Nat} (hone : 0 < one) :
    u / one ≤ (2 * u + one) / (2 * one) ∧ (2 * u + one) / (2 * one) ≤ u / one + 1 := by
  have hfloor : u / one * one ≤ u := Nat.div_mul_le_self u one
  have hceil : u < one * (u / one + 1) := Nat.lt_mul_div_succ u hone
  generalize u / one = whole at *
  constructor
  · rw [Nat.le_div_iff_mul_le (by omega)]
    linarith
  · apply Nat.le_of_lt_succ
    rw [Nat.div_lt_iff_lt_mul (by omega)]
    linarith

/-- Rounding a quotient without a remainder is dividing. -/
theorem rounded_div_of_dvd {u one : Nat} (hone : 0 < one) (hdvd : one ∣ u) :
    (2 * u + one) / (2 * one) = u / one := by
  obtain ⟨whole, rfl⟩ := hdvd
  rw [Nat.mul_div_cancel_left _ hone]
  apply Nat.div_eq_of_lt_le
  · linarith
  · linarith

/-- A magnitude that is not whole is below `2 ^ fraction`. -/
theorem Format.one_dvd_units_or_div_lt (F : Format) (rank : Nat) :
    F.one ∣ F.units rank ∨ F.units rank / F.one < F.binadeSize := by
  have hplace : rank % F.binadeSize < F.binadeSize := Nat.mod_lt _ F.binadeSize_pos
  unfold units
  dsimp only
  split
  · right
    exact (Nat.div_le_self _ _).trans_lt hplace
  · generalize rank % F.binadeSize = place at *
    generalize rank / F.binadeSize - 1 = exponent
    rcases Nat.lt_or_ge exponent F.scale with hlow | hhigh
    · right
      rw [Nat.div_lt_iff_lt_mul F.one_pos]
      calc (F.binadeSize + place) * 2 ^ exponent
          < 2 * F.binadeSize * 2 ^ exponent :=
            Nat.mul_lt_mul_of_pos_right (by omega) (Nat.two_pow_pos _)
        _ = F.binadeSize * 2 ^ (exponent + 1) := by ring
        _ ≤ F.binadeSize * 2 ^ F.scale :=
            Nat.mul_le_mul_left _ (Nat.pow_le_pow_right (by decide) hlow)
    · left
      exact Dvd.dvd.mul_left (Nat.pow_dvd_pow 2 hhigh) _

/-- Two integers of one sign that are next to each other, or equal, the first one not nearer to
zero. -/
structure Outward (outer inner : Int) : Prop where
  distance_le : |outer - inner| ≤ 1
  abs_le : |inner| ≤ |outer|
  sameSign : 0 ≤ outer * inner

/-- A magnitude that is greater by at most one is outward, with either sign. -/
theorem outward_signed (negative : Bool) {outer inner : Nat} (hle : inner ≤ outer)
    (hsucc : outer ≤ inner + 1) : Outward (signed negative outer) (signed negative inner) := by
  have hproduct : (0 : Int) ≤ (outer : Int) * inner := by positivity
  unfold signed
  cases negative with
  | false =>
    rw [if_neg Bool.false_ne_true, if_neg Bool.false_ne_true]
    refine ⟨?_, ?_, hproduct⟩
    · rw [abs_le]
      omega
    · rw [Nat.abs_cast, Nat.abs_cast]
      omega
  | true =>
    rw [if_pos rfl, if_pos rfl]
    refine ⟨?_, ?_, ?_⟩
    · rw [abs_le]
      omega
    · rw [abs_neg, abs_neg, Nat.abs_cast, Nat.abs_cast]
      omega
    · rwa [neg_mul_neg]

/-- A finite number has both integers and any other number has neither. -/
theorem Binary.rounded_truncated {F : Format} (number : Binary F) :
    (number.roundToInt? = none ∧ number.truncateToInt? = none) ∨
      ∃ rounded truncated, number.roundToInt? = some rounded ∧
        number.truncateToInt? = some truncated ∧ Outward rounded truncated ∧
        (rounded = truncated ∨ truncated.natAbs < F.binadeSize) := by
  cases number with
  | nan => exact .inl ⟨rfl, rfl⟩
  | infinity negative => exact .inl ⟨rfl, rfl⟩
  | finite negative rank =>
    obtain ⟨hle, hsucc⟩ := div_le_rounded_div (F.units rank) F.one_pos
    refine .inr ⟨_, _, rfl, rfl, outward_signed negative hle hsucc, ?_⟩
    rcases F.one_dvd_units_or_div_lt rank with hdvd | hlt
    · left
      rw [rounded_div_of_dvd F.one_pos hdvd]
    · right
      rwa [← natAbs_signed negative (F.units rank / F.one)] at hlt

end TypedVars
