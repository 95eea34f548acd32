import Mathlib.Data.Nat.Log
import TypedVars.Number.Decimal
import TypedVars.Proofs.Number.Nearest
import TypedVars.Proofs.Number.Value

/-!
# Reading decimals

The number that is read for a decimal is the one nearest to its value. A decimal that is not
expanded is no exception: one with too many places in front of the point is beyond every magnitude,
and one with too many zeros behind it is nearer to zero than to any other magnitude. So two decimals
of one value are read as the same number, and a decimal whose value is a magnitude is read as that
magnitude.
-/

set_option autoImplicit false

namespace TypedVars

namespace Binary

variable {F : Format}

/-- A quotient is rounded to the finite number of its nearest rank. -/
theorem round_eq_finite_iff {negative : Bool} {num den : Nat} {rank : Fin F.count} :
    (round negative num den : Binary F) = .finite negative rank ↔ F.nearestRank num den = rank := by
  constructor
  · intro h
    unfold round at h
    split at h
    · exact congrArg Fin.val (finite.inj h).2
    · exact nomatch h
  · intro h
    rw [round_eq_finite (h ▸ rank.isLt)]
    congr 1
    exact Fin.ext h

/-- A quotient whose nearest rank is out of range is rounded to infinity. -/
theorem round_eq_infinity {negative : Bool} {num den : Nat} (h : F.count ≤ F.nearestRank num den) :
    (round negative num den : Binary F) = .infinity negative :=
  dif_neg (Nat.not_lt.2 h)

/-- Quotients with the same nearest rank are rounded alike. -/
theorem round_congr_rank {negative : Bool} {num den otherNum otherDen : Nat}
    (h : F.nearestRank num den = F.nearestRank otherNum otherDen) :
    (round negative num den : Binary F) = round negative otherNum otherDen := by
  unfold round
  simp only [h]

end Binary

/-! ## The value of a decimal -/

namespace Decimal

/-- The rational number that a decimal is. -/
def value (d : Decimal) : ℚ := d.coefficient * 10 ^ d.exponent

/-- The units of a decimal, as far as they are a multiple of the inverse of a power of ten. -/
def num (F : Format) (d : Decimal) : Nat := d.coefficient * 10 ^ d.exponent.toNat * F.one

/-- The power of ten that the units of a decimal are divided by. -/
def den (d : Decimal) : Nat := 10 ^ (-d.exponent).toNat

/-- The denominator of a decimal is positive. -/
theorem den_pos (d : Decimal) : 0 < d.den := Nat.pow_pos (by decide)

/-- A power of ten is the quotient of two natural powers, of which one is trivial. -/
theorem ten_pow_toNat (exponent : ℤ) :
    (10 : ℚ) ^ exponent.toNat = 10 ^ exponent * 10 ^ (-exponent).toNat := by
  rw [← zpow_natCast, ← zpow_natCast, ← zpow_add₀ (by norm_num)]
  congr 1
  omega

/-- The fraction of a decimal is its value in units. -/
theorem num_div_den (F : Format) (d : Decimal) : (d.num F : ℚ) / d.den = d.value * F.one := by
  have hden : (10 : ℚ) ^ (-d.exponent).toNat ≠ 0 := by positivity
  unfold num den value
  push_cast
  rw [div_eq_iff hden, ten_pow_toNat]
  ring

/-- The number of digits is one more than the logarithm. -/
theorem digitCount_eq (n : Nat) : digitCount n = Nat.log 10 n + 1 := by
  induction n using Nat.strongRecOn with
  | ind n ih =>
    unfold digitCount Digits.ofNat
    split
    · next hsmall => rw [Nat.log_of_lt hsmall, List.length_singleton]
    · next hlarge =>
      have hfront := ih (n / 10) (by omega)
      unfold digitCount at hfront
      rw [List.length_append, hfront, List.length_singleton, Nat.log_div_base]
      have hpos : 0 < Nat.log 10 n := Nat.log_pos (by decide) (by omega)
      omega

/-- A number is below the power of ten with its number of digits. -/
theorem lt_pow_digitCount (n : Nat) : n < 10 ^ digitCount n := by
  rw [digitCount_eq]
  exact Nat.lt_pow_succ_log_self (by decide) n

/-- A positive number is not below the power of ten with one digit less. -/
theorem pow_digitCount_le {n : Nat} (h : n ≠ 0) : 10 ^ (digitCount n - 1) ≤ n := by
  rw [digitCount_eq, Nat.add_sub_cancel]
  exact Nat.pow_log_le_self 10 h

/-- Every number has a digit. -/
theorem digitCount_pos (n : Nat) : 0 < digitCount n := by
  rw [digitCount_eq]
  exact Nat.succ_pos _

/-- A decimal that is not expanded because of its size is beyond the last binade. -/
theorem le_num_div_den {F : Format} (hwide : F.Wide) {d : Decimal} (hne : d.coefficient ≠ 0)
    (h : (F.binades : Int) < d.exponent + digitCount d.coefficient) :
    2 ^ (F.binades + F.fraction) ≤ d.num F / d.den := by
  have hone : F.one = 2 ^ F.scale := rfl
  have hprecision : 2 ^ F.fraction ≤ 2 ^ F.scale :=
    Nat.pow_le_pow_right (by decide) (by have := hwide.low; omega)
  have hdigits := pow_digitCount_le hne
  have hplaces : F.binades + (-d.exponent).toNat ≤
      digitCount d.coefficient - 1 + d.exponent.toNat := by omega
  rw [Nat.le_div_iff_mul_le d.den_pos, den, num, hone]
  calc 2 ^ (F.binades + F.fraction) * 10 ^ (-d.exponent).toNat
      ≤ 10 ^ F.binades * 2 ^ F.scale * 10 ^ (-d.exponent).toNat := by
        rw [Nat.pow_add]
        gcongr
        decide
    _ = 10 ^ (F.binades + (-d.exponent).toNat) * 2 ^ F.scale := by
        rw [Nat.pow_add]
        ring
    _ ≤ 10 ^ (digitCount d.coefficient - 1 + d.exponent.toNat) * 2 ^ F.scale := by
        gcongr
        decide
    _ = 10 ^ (digitCount d.coefficient - 1) * 10 ^ d.exponent.toNat * 2 ^ F.scale := by
        rw [Nat.pow_add]
    _ ≤ d.coefficient * 10 ^ d.exponent.toNat * 2 ^ F.scale := by gcongr

/-- A decimal that is not expanded because of its smallness is below one half of a unit. -/
theorem two_mul_num_lt_den {F : Format} {d : Decimal}
    (h : d.exponent + digitCount d.coefficient < -(F.scale : Int)) : 2 * d.num F < d.den := by
  have hone : F.one = 2 ^ F.scale := rfl
  have hpos := digitCount_pos d.coefficient
  have hwhole : d.exponent.toNat = 0 := by omega
  have hplaces : 1 + F.scale + digitCount d.coefficient ≤ (-d.exponent).toNat := by omega
  rw [num, den, hwhole, hone]
  calc 2 * (d.coefficient * 10 ^ 0 * 2 ^ F.scale)
      = 2 ^ 1 * 2 ^ F.scale * d.coefficient := by ring
    _ < 2 ^ 1 * 2 ^ F.scale * 10 ^ digitCount d.coefficient := by
        gcongr
        exact lt_pow_digitCount _
    _ ≤ 10 ^ 1 * 10 ^ F.scale * 10 ^ digitCount d.coefficient := by
        gcongr
        · decide
        · decide
    _ = 10 ^ (1 + F.scale + digitCount d.coefficient) := by rw [Nat.pow_add, Nat.pow_add]
    _ ≤ 10 ^ (-d.exponent).toNat := Nat.pow_le_pow_right (by decide) hplaces

variable {F : Format}

/-- A decimal is read as the number nearest to it, whether or not it is expanded. -/
theorem toBinary_eq_round (hwide : F.Wide) (negative : Bool) (d : Decimal) :
    d.toBinary F negative = Binary.round negative (d.num F) d.den := by
  have hzero : F.nearestRank 0 1 = 0 := F.nearestRank_eq_zero (by decide)
  unfold toBinary
  split
  · next hnone =>
    apply Binary.round_congr_rank
    rw [hzero, F.nearestRank_eq_zero]
    unfold num
    rw [hnone, Nat.zero_mul, Nat.zero_mul]
    exact d.den_pos
  · next hsome =>
    split
    · next hlarge =>
      have hcount := F.count_le_nearestRank (le_num_div_den hwide hsome hlarge)
      exact (Binary.round_eq_infinity hcount).symm
    split
    · next hsmall =>
      apply Binary.round_congr_rank
      rw [hzero, F.nearestRank_eq_zero (two_mul_num_lt_den hsmall)]
    · cases hexponent : d.exponent with
      | ofNat e =>
        have hnum : d.num F = d.coefficient * Nat.pow 10 e * F.one := by
          rw [num, hexponent]
          rfl
        have hden : d.den = 1 := by
          have hplaces : (-(Int.ofNat e)).toNat = 0 := by simp
          rw [den, hexponent, hplaces, Nat.pow_zero]
        rw [hnum, hden]
      | negSucc e =>
        have hnum : d.num F = d.coefficient * F.one := by
          rw [num, hexponent, Int.toNat_negSucc, Nat.pow_zero, Nat.mul_one]
        have hden : d.den = Nat.pow 10 (e + 1) := by
          rw [den, hexponent]
          rfl
        rw [hnum, hden]

/-- A greater decimal has no smaller nearest magnitude. -/
theorem nearestRank_mono {d other : Decimal} (h : d.value ≤ other.value) :
    F.nearestRank (d.num F) d.den ≤ F.nearestRank (other.num F) other.den := by
  have hquotient : (d.num F : ℚ) / d.den ≤ other.num F / other.den := by
    rw [num_div_den, num_div_den]
    exact mul_le_mul_of_nonneg_right h (Nat.cast_nonneg F.one)
  apply F.nearestRank_mono d.den_pos other.den_pos
  rw [div_le_div_iff₀ (Nat.cast_pos.2 d.den_pos) (Nat.cast_pos.2 other.den_pos)] at hquotient
  exact_mod_cast hquotient

/-- The number that is read for a decimal depends on its value only. -/
theorem toBinary_congr (hwide : F.Wide) (negative : Bool) {d other : Decimal}
    (h : d.value = other.value) : d.toBinary F negative = other.toBinary F negative := by
  rw [toBinary_eq_round hwide, toBinary_eq_round hwide]
  apply Binary.round_congr_rank
  exact Nat.le_antisymm (nearestRank_mono h.le) (nearestRank_mono h.ge)

/-- A decimal is read as a finite number of either sign when that magnitude is the nearest one. -/
theorem toBinary_eq_finite_iff (hwide : F.Wide) (negative : Bool) {d : Decimal}
    {rank : Fin F.count} :
    d.toBinary F negative = .finite negative rank ↔ F.nearestRank (d.num F) d.den = rank := by
  rw [toBinary_eq_round hwide, Binary.round_eq_finite_iff]

/-- A decimal whose value is a magnitude is read as that magnitude. -/
theorem toBinary_of_value_eq (hwide : F.Wide) (negative : Bool) {d : Decimal} {rank : Fin F.count}
    (h : d.value = F.units rank / F.one) : d.toBinary F negative = .finite negative rank := by
  have hone : (F.one : ℚ) ≠ 0 := Nat.cast_ne_zero.2 F.one_pos.ne'
  have hquotient := num_div_den F d
  rw [h, div_mul_cancel₀ _ hone, div_eq_iff (Nat.cast_ne_zero.2 d.den_pos.ne')] at hquotient
  rw [toBinary_eq_finite_iff hwide, ← F.nearestRank_units rank]
  apply F.nearestRank_of_mul_eq d.den_pos Nat.one_pos
  rw [Nat.mul_one]
  exact_mod_cast hquotient

end Decimal

end TypedVars
