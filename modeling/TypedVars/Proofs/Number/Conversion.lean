import TypedVars.Proofs.Number.Positional
import TypedVars.Proofs.Number.Truncation

/-!
# Conversion to sixty-four bit integers

An integral floating-point number is converted to an integer of sixty-four bits when it is finite,
not less than the least integer and less than the greatest one, where both ends of the range are
first rounded to floating-point numbers. The greatest integer is rounded to the number behind it, so
this comparison holds of exactly the numbers in range, and none of them is moved by the conversion,
which moves the others to the ends of the range.
-/

set_option autoImplicit false

namespace TypedVars

namespace Binary

variable {F : Format}

/-! ## Integral numbers -/

def isFinite : Binary F → Bool
  | .finite _ _ => true
  | _ => false

/-- The floating-point number of the nearest integer, halves away from zero. It keeps the sign. -/
def nearestIntegral : Binary F → Binary F
  | .finite negative rank => round negative ((2 * F.units rank + F.one) / (2 * F.one) * F.one) 1
  | number => number

/-- The floating-point number of the next integer towards zero. It keeps the sign. -/
def truncatedIntegral : Binary F → Binary F
  | .finite negative rank => round negative (F.units rank / F.one * F.one) 1
  | number => number

/-- The units of a rank are rounded to the rank. -/
theorem round_units (negative : Bool) (rank : Fin F.count) :
    round negative (F.units rank) 1 = .finite negative rank := by
  have hrank := F.nearestRank_units rank
  have hlt : F.nearestRank (F.units rank) 1 < F.count := by
    rw [hrank]
    exact rank.isLt
  rw [round_eq_finite hlt]
  congr 1
  exact Fin.ext hrank

/-- An integer next to a magnitude is a magnitude itself. -/
theorem isInt_round_of_near (hwide : F.Wide) (negative : Bool) (rank : Fin F.count) {whole : Nat}
    (hwhole : F.one ∣ F.units rank → whole = F.units rank / F.one)
    (hle : whole ≤ F.units rank / F.one + 1) :
    (round negative (whole * F.one) 1 : Binary F).IsInt (signed negative whole) := by
  rcases F.one_dvd_units_or_div_lt rank with hdvd | hlt
  · have hunits : whole * F.one = F.units rank := by
      rw [hwhole hdvd, Nat.div_mul_cancel hdvd]
    rw [hunits, round_units]
    exact .intro hunits.symm
  · exact isInt_round hwide negative (by omega) Nat.one_pos (Nat.mul_one _).symm

/-- The number of an integer, or something that is not finite where there is no integer. -/
def HoldsInt (number : Binary F) : Option Int → Prop
  | some n => number.IsInt n
  | none => number.isFinite = false

/-- Rounding a number to an integral one keeps the integer nearest to it. -/
theorem holdsInt_nearestIntegral (hwide : F.Wide) (number : Binary F) :
    number.nearestIntegral.HoldsInt number.roundToInt? := by
  cases number with
  | nan => rfl
  | infinity negative => rfl
  | finite negative rank =>
    exact isInt_round_of_near hwide negative rank (rounded_div_of_dvd F.one_pos)
      (div_le_rounded_div _ F.one_pos).2

/-- Truncating a number to an integral one keeps the integer that it is cut to. -/
theorem holdsInt_truncatedIntegral (hwide : F.Wide) (number : Binary F) :
    number.truncatedIntegral.HoldsInt number.truncateToInt? := by
  cases number with
  | nan => rfl
  | infinity negative => rfl
  | finite negative rank =>
    exact isInt_round_of_near hwide negative rank (fun _ => rfl) (Nat.le_succ _)

/-! ## Comparing and converting -/

/-- The order of two numbers; something that is no number has no order to any number. -/
def compare? : Binary F → Binary F → Option Ordering
  | .nan, _ => none
  | _, .nan => none
  | .infinity left, .infinity right => some (compare right left)
  | .infinity left, .finite _ _ => some (if left then .lt else .gt)
  | .finite _ _, .infinity right => some (if right then .gt else .lt)
  | .finite left leftRank, .finite right rightRank =>
    some (compare (signedUnits left leftRank) (signedUnits right rightRank))

/-- The number nearest to an integer. -/
def ofInt64 (n : Int64) : Binary F := round (decide (n.toInt < 0)) (n.toInt.natAbs * F.one) 1

/-- The integer of a number, truncated, and the nearer end of the range for a number beyond it. -/
def toInt64 : Binary F → Int64
  | .nan => 0
  | .infinity negative => if negative then Int64.minValue else Int64.maxValue
  | .finite negative rank =>
    let truncated := signed negative (F.units rank / F.one)
    if truncated < Int64.minValue.toInt then Int64.minValue
    else if Int64.maxValue.toInt < truncated then Int64.maxValue
    else Int64.ofInt truncated

/-- The integer of an integral number, if it is in range. -/
def toInt64? (number : Binary F) : Option Int64 :=
  if number.isFinite ∧ (number.compare? (ofInt64 Int64.minValue)).any Ordering.isGE ∧
      number.compare? (ofInt64 Int64.maxValue) = some .lt then some number.toInt64
  else none

/-- Numbers that hold integers are ordered as these are. -/
theorem IsInt.compare?_eq {left right : Binary F} {n m : Int} (hleft : left.IsInt n)
    (hright : right.IsInt m) : left.compare? right = some (compare n m) := by
  cases hleft with
  | intro hunits =>
  cases hright with
  | intro hother =>
  have hpos : (0 : Int) < F.one := Int.natCast_pos.2 F.one_pos
  unfold compare?
  dsimp only
  rw [signedUnits_eq hunits, signedUnits_eq hother, ← cmp_eq_compare, cmp_mul_pos_right hpos,
    cmp_eq_compare]

/-- An integer of sixty-four bits is converted to the integer that its rounded magnitude holds. -/
theorem isInt_ofInt64 {n : Int64} {magnitude : Nat}
    (hlt : F.nearestRank (n.toInt.natAbs * F.one) 1 < F.count)
    (hunits : F.units (F.nearestRank (n.toInt.natAbs * F.one) 1) = magnitude * F.one) :
    (ofInt64 n : Binary F).IsInt (signed (decide (n.toInt < 0)) magnitude) := by
  unfold ofInt64
  rw [round_eq_finite hlt]
  exact .intro hunits

/-- The least integer of sixty-four bits is converted exactly. -/
theorem isInt_ofInt64_minValue :
    (ofInt64 Int64.minValue : Binary64).IsInt (-9223372036854775808) :=
  isInt_ofInt64 (by decide +kernel) (by decide +kernel)

/-- The greatest integer is rounded to the one behind it. -/
theorem isInt_ofInt64_maxValue :
    (ofInt64 Int64.maxValue : Binary64).IsInt 9223372036854775808 :=
  isInt_ofInt64 (by decide +kernel) (by decide +kernel)

/-- A number that holds an integer is finite. -/
theorem IsInt.isFinite {number : Binary F} {n : Int} (h : number.IsInt n) :
    number.isFinite = true := by
  cases h with
  | intro => rfl

/-- An integer in range is not moved by the conversion. -/
theorem IsInt.toInt64_eq {number : Binary F} {n : Int} (h : number.IsInt n) (hfits : FitsInt64 n) :
    number.toInt64 = Int64.ofInt n := by
  cases h with
  | @intro negative rank magnitude hunits =>
    have hwhole : F.units rank / F.one = magnitude := by
      rw [hunits, Nat.mul_div_cancel _ F.one_pos]
    have hlow : ¬ signed negative magnitude < Int64.minValue.toInt := not_lt.2 hfits.1
    have hhigh : ¬ Int64.maxValue.toInt < signed negative magnitude := not_lt.2 hfits.2
    unfold toInt64
    dsimp only
    rw [hwhole, if_neg hlow, if_neg hhigh]

/-- A number that holds an integer is converted to it when it fits sixty-four bits. -/
theorem IsInt.toInt64?_eq {number : Binary64} {n : Int} (h : number.IsInt n) :
    number.toInt64? = if FitsInt64 n then some (Int64.ofInt n) else none := by
  have hlow : (number.compare? (ofInt64 Int64.minValue)).any Ordering.isGE = true ↔
      -9223372036854775808 ≤ n := by
    rw [h.compare?_eq isInt_ofInt64_minValue, Option.any_some, Ordering.isGE_iff_ne_lt]
    exact compare_ge_iff_ge
  have hhigh : number.compare? (ofInt64 Int64.maxValue) = some .lt ↔ n < 9223372036854775808 := by
    rw [h.compare?_eq isInt_ofInt64_maxValue, Option.some.injEq, compare_lt_iff_lt]
  have hrange : (number.isFinite = true ∧
      (number.compare? (ofInt64 Int64.minValue)).any Ordering.isGE = true ∧
        number.compare? (ofInt64 Int64.maxValue) = some .lt) ↔ FitsInt64 n := by
    rw [hlow, hhigh, h.isFinite, eq_self, true_and, FitsInt64]
    omega
  unfold toInt64?
  by_cases hfits : FitsInt64 n
  · rw [if_pos (hrange.2 hfits), if_pos hfits, h.toInt64_eq hfits]
  · rw [if_neg (mt hrange.1 hfits), if_neg hfits]

/-- The conversion refuses the integers out of range and keeps the others. -/
theorem HoldsInt.toInt64?_eq {number : Binary64} {integer? : Option Int}
    (h : number.HoldsInt integer?) :
    number.toInt64? = (integer?.filter fitsInt64).map Int64.ofInt := by
  cases integer? with
  | none =>
    have hfinite : number.isFinite = false := h
    unfold toInt64?
    rw [hfinite, if_neg (by simp)]
    rfl
  | some n =>
    have hint : number.IsInt n := h
    rw [hint.toInt64?_eq, filter_fitsInt64_some]
    split_ifs <;> rfl

end Binary

end TypedVars
