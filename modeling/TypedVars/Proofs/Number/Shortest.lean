import TypedVars.Number.Shortest
import TypedVars.Proofs.Number.Reading

/-!
# Shortest decimals read back

The decimal that is chosen for a magnitude is read as that magnitude, with either sign. The search
only takes decimals that are, the exact decimal has the value of the magnitude, and trailing zeros
are moved into the exponent without a change of value.
-/

set_option autoImplicit false

namespace TypedVars

namespace Decimal

/-- Trimming zeros keeps the value, whatever the fuel. -/
theorem value_trimFrom (fuel : Nat) (d : Decimal) : (trimFrom fuel d).value = d.value := by
  induction fuel generalizing d with
  | zero => rfl
  | succ fuel ih =>
    rw [trimFrom]
    split
    · next h =>
      have hzeros : d.coefficient = d.coefficient / 10 * 10 := by omega
      have hcast : (d.coefficient : ℚ) = (d.coefficient / 10 : Nat) * 10 := by exact_mod_cast hzeros
      rw [ih, value, value, hcast, zpow_add_one₀ (by norm_num)]
      ring
    · rfl

/-- Trimming zeros keeps the value. -/
theorem value_trim (d : Decimal) : d.trim.value = d.value := value_trimFrom _ d

end Decimal

namespace Format

variable {F : Format}

/-- The exact decimal of a rank has the value of the rank. -/
theorem value_exactDecimal (F : Format) (rank : Nat) :
    (F.exactDecimal rank).value = F.units rank / F.one := by
  have hone : (F.one : ℚ) = 2 ^ F.scale := Nat.cast_pow 2 F.scale
  have hten : (10 : ℚ) ^ F.scale = 5 ^ F.scale * 2 ^ F.scale := by
    rw [← mul_pow]
    norm_num
  have hfive : ((Nat.pow 5 F.scale : Nat) : ℚ) = 5 ^ F.scale := Nat.cast_pow 5 F.scale
  unfold exactDecimal Decimal.value
  dsimp only
  rw [hone, zpow_neg, zpow_natCast, hten, Nat.cast_mul, hfive]
  field_simp

/-- A decimal is read back as a rank when that is the nearest one to it. -/
theorem readsBack_iff (hwide : F.Wide) {rank : Fin F.count} {d : Decimal} :
    F.readsBack rank d = true ↔ F.nearestRank (d.num F) d.den = rank := by
  rw [← Decimal.toBinary_eq_finite_iff hwide false, readsBack]
  split
  · next found hread => rw [hread, beq_iff_eq, Binary.finite.injEq]; simp
  · next hread =>
    constructor
    · intro h
      exact absurd h Bool.false_ne_true
    · intro h
      exact absurd h (hread rank)

/-- Whatever reads back does so with either sign. -/
theorem toBinary_of_readsBack (hwide : F.Wide) {rank : Fin F.count} {d : Decimal}
    (h : F.readsBack rank d = true) (negative : Bool) :
    d.toBinary F negative = .finite negative rank :=
  (Decimal.toBinary_eq_finite_iff hwide negative).2 ((readsBack_iff hwide).1 h)

/-- A decimal with the value of a rank is read back as the rank. -/
theorem readsBack_of_value_eq (hwide : F.Wide) {rank : Fin F.count} {d : Decimal}
    (h : d.value = F.units rank / F.one) : F.readsBack rank d = true := by
  rw [readsBack_iff hwide, ← Decimal.toBinary_eq_finite_iff hwide false]
  exact Decimal.toBinary_of_value_eq hwide false h

/-- The exact decimal of a rank is read back as the rank. -/
theorem readsBack_exactDecimal (hwide : F.Wide) (rank : Fin F.count) :
    F.readsBack rank (F.exactDecimal rank) = true :=
  readsBack_of_value_eq hwide (F.value_exactDecimal rank)

/-- The search for short decimals ends with one that is read back as the rank. -/
theorem readsBack_shortestFrom (hwide : F.Wide) (rank : Fin F.count) (digits fuel : Nat) :
    F.readsBack rank (F.shortestFrom rank digits fuel) = true := by
  induction fuel generalizing digits with
  | zero => exact readsBack_exactDecimal hwide rank
  | succ fuel ih =>
    rw [shortestFrom]
    split
    · next found hfound => exact List.find?_some hfound
    · exact ih (digits + 1)

/-- The shortest decimal of a magnitude is read as that magnitude. -/
theorem toBinary_shortest (hwide : F.Wide) (negative : Bool) (rank : Fin F.count) :
    (F.shortest rank).toBinary F negative = .finite negative rank := by
  unfold shortest
  split
  · next hzero =>
    apply Decimal.toBinary_of_value_eq hwide
    rw [hzero, Decimal.value]
    simp
  · rw [Decimal.toBinary_congr hwide negative (Decimal.value_trim _)]
    exact toBinary_of_readsBack hwide (readsBack_shortestFrom hwide rank 1 17) negative

end Format

end TypedVars
