import TypedVars.Proofs.Number.Numeral
import TypedVars.Proofs.Number.Rounding

/-!
# Integers as floating-point numbers

A format whose range is wide enough holds every integer up to `2 ^ (fraction + 1)` exactly. So an
integer of this size is read as itself, and sums, differences and products of such integers that
stay in this range are exact. Only the sign of zero is left open.
-/

set_option autoImplicit false

namespace TypedVars

/-- The integer of a sign and a magnitude. -/
def signed (negative : Bool) (magnitude : Nat) : Int :=
  if negative then -(magnitude : Int) else magnitude

/-- Zero has no sign. -/
theorem signed_zero (negative : Bool) : signed negative 0 = 0 := by
  cases negative <;> rfl

/-- The opposite of a signed magnitude has the other sign. -/
theorem neg_signed (negative : Bool) (magnitude : Nat) :
    -signed negative magnitude = signed (!negative) magnitude := by
  cases negative <;> simp [signed]

/-- The product of signed magnitudes is negative when their signs differ. -/
theorem signed_mul (left right : Bool) (magnitude other : Nat) :
    signed left magnitude * signed right other = signed (left != right) (magnitude * other) := by
  cases left <;> cases right <;> simp [signed]

/-- An integer is its magnitude with its sign. -/
theorem signed_natAbs (n : Int) : signed (decide (n < 0)) n.natAbs = n := by
  unfold signed
  by_cases h : n < 0
  · rw [decide_eq_true h, if_pos rfl]
    omega
  · rw [decide_eq_false h, if_neg Bool.false_ne_true]
    omega

/-- The magnitude of a signed magnitude is the magnitude. -/
theorem natAbs_signed (negative : Bool) (magnitude : Nat) :
    (signed negative magnitude).natAbs = magnitude := by
  cases negative <;> simp [signed]

/-- A format whose smallest magnitudes are small enough and whose greatest are great enough for the
integers of its precision. -/
structure Format.Wide (F : Format) : Prop where
  low : F.fraction + 1 < F.scale
  high : F.scale + 3 < F.binades

/-- The format of stored numbers holds the integers up to `2 ^ 53`. -/
theorem Format.wide_binary64 : Format.binary64.Wide := ⟨by decide, by decide⟩

namespace Binary

variable {F : Format}

/-- A number whose value is an integer; zero has both signs. -/
inductive IsInt : Binary F → Int → Prop
  | intro {negative : Bool} {rank : Fin F.count} {magnitude : Nat}
      (h : F.units rank = magnitude * F.one) :
      IsInt (.finite negative rank) (signed negative magnitude)

/-- The signed units of a rank that holds a magnitude are those of the signed magnitude. -/
theorem signedUnits_eq {negative : Bool} {rank : Fin F.count} {magnitude : Nat}
    (h : F.units rank = magnitude * F.one) :
    signedUnits negative rank = signed negative magnitude * F.one := by
  unfold signedUnits signed
  rw [h]
  cases negative <;> simp

/-! ## Exact results -/

/-- A quotient whose nearest rank is in range is rounded to a finite number. -/
theorem round_eq_finite {negative : Bool} {num den : Nat} (h : F.nearestRank num den < F.count) :
    (round negative num den : Binary F) = .finite negative ⟨F.nearestRank num den, h⟩ :=
  dif_pos h

/-- An integer of the precision of the format is kept when it is rounded. -/
theorem isInt_round (hwide : F.Wide) (negative : Bool) {magnitude num den : Nat}
    (hmagnitude : magnitude ≤ 2 * F.binadeSize) (hden : 0 < den)
    (hnum : num = magnitude * F.one * den) :
    (round negative num den : Binary F).IsInt (signed negative magnitude) := by
  have hquotient : num / den = magnitude * 2 ^ F.scale := by
    rw [hnum, Nat.mul_div_cancel _ hden]
    rfl
  have hcoarse : F.coarseness num den ≤ F.scale + 1 := by
    apply F.coarseness_le
    rw [hquotient]
    calc magnitude * 2 ^ F.scale
        ≤ 2 * F.binadeSize * 2 ^ F.scale := Nat.mul_le_mul_right _ hmagnitude
      _ < 2 * F.binadeSize * 2 ^ (F.scale + 1) := by
        apply Nat.mul_lt_mul_of_pos_left (Nat.pow_lt_pow_right (by decide) (Nat.lt_succ_self _))
        have := F.binadeSize_pos
        omega
  have hcount : F.nearestRank num den < F.count := by
    apply F.nearestRank_lt_count
    have := hwide.high
    omega
  rw [round_eq_finite hcount]
  exact .intro (F.units_nearestRank_of_eq hden hmagnitude hnum)

/-- Zero is rounded to zero, whatever its sign. -/
theorem isInt_round_zero (hwide : F.Wide) (negative : Bool) :
    (round negative 0 1 : Binary F).IsInt 0 := by
  have hnum : 0 = 0 * F.one * 1 := by rw [Nat.zero_mul]
  have hzero := isInt_round hwide negative (Nat.zero_le _) Nat.one_pos hnum
  rwa [signed_zero] at hzero

/-- The opposite of a number that holds an integer holds the opposite integer. -/
theorem IsInt.neg {number : Binary F} {n : Int} (h : number.IsInt n) : number.neg.IsInt (-n) := by
  cases h with
  | intro hunits =>
    rw [neg_signed]
    exact .intro hunits

variable {left right : Binary F} {n m : Int}

/-- Adding numbers that hold integers is exact up to the greatest exact magnitude. -/
theorem IsInt.add (hwide : F.Wide) (hleft : left.IsInt n) (hright : right.IsInt m)
    (hsum : (n + m).natAbs ≤ 2 * F.binadeSize) : (Binary.add left right).IsInt (n + m) := by
  cases hleft with
  | @intro leftSign leftRank magnitude hunits =>
  cases hright with
  | @intro rightSign rightRank other hother =>
  have htotal : signedUnits leftSign leftRank + signedUnits rightSign rightRank =
      (signed leftSign magnitude + signed rightSign other) * F.one := by
    rw [signedUnits_eq hunits, signedUnits_eq hother, Int.add_mul]
  -- from here on only the sum matters, and its sign is that of its units
  generalize signed leftSign magnitude + signed rightSign other = sum at *
  have hpos : (0 : Int) < F.one := Int.natCast_pos.2 F.one_pos
  unfold Binary.add
  dsimp only
  rw [htotal]
  by_cases hzero : sum = 0
  · rw [hzero, Int.zero_mul, if_pos rfl]
    exact isInt_round_zero hwide _
  · have hne : sum * F.one ≠ 0 := Int.mul_ne_zero hzero (Int.ne_of_gt hpos)
    have hsign : decide (sum * F.one < 0) = decide (sum < 0) :=
      decide_eq_decide.2
        ⟨fun h => neg_of_mul_neg_left h hpos.le, fun h => mul_neg_of_neg_of_pos h hpos⟩
    have habs : (sum * F.one).natAbs = sum.natAbs * F.one * 1 := by
      rw [Int.natAbs_mul, Int.natAbs_natCast, Nat.mul_one]
    rw [if_neg hne, hsign]
    have hround := isInt_round hwide (decide (sum < 0)) hsum Nat.one_pos habs
    rwa [signed_natAbs] at hround

/-- Subtracting numbers that hold integers is exact up to the greatest exact magnitude. -/
theorem IsInt.sub (hwide : F.Wide) (hleft : left.IsInt n) (hright : right.IsInt m)
    (hdifference : (n - m).natAbs ≤ 2 * F.binadeSize) : (Binary.sub left right).IsInt (n - m) :=
  IsInt.add hwide hleft hright.neg hdifference

/-- Multiplying numbers that hold integers is exact up to the greatest exact magnitude. -/
theorem IsInt.mul (hwide : F.Wide) (hleft : left.IsInt n) (hright : right.IsInt m)
    (hproduct : (n * m).natAbs ≤ 2 * F.binadeSize) : (Binary.mul left right).IsInt (n * m) := by
  cases hleft with
  | @intro leftSign leftRank magnitude hunits =>
  cases hright with
  | @intro rightSign rightRank other hother =>
  rw [signed_mul] at hproduct ⊢
  rw [natAbs_signed] at hproduct
  have hnum : F.units leftRank * F.units rightRank = magnitude * other * F.one * F.one := by
    rw [hunits, hother]
    ring
  exact isInt_round hwide _ hproduct F.one_pos hnum

end Binary

/-! ## Reading -/

namespace Digits

/-- A number has at most as many decimal digits as binary ones. -/
theorem length_ofNat_le {k bits : Nat} (hbits : 0 < bits) (h : k < 2 ^ bits) :
    (ofNat k).length ≤ bits := by
  induction bits generalizing k with
  | zero => omega
  | succ bits ih =>
    unfold ofNat
    split
    · simp
    · next hlarge =>
      have hhalf : k / 10 < 2 ^ bits := by
        rw [Nat.pow_succ] at h
        omega
      -- a number of more than one digit has more than one bit
      have hpos : 0 < bits := by
        apply Nat.pos_of_ne_zero
        rintro rfl
        simp at h
        omega
      have hfront := ih hpos hhalf
      rw [List.length_append, List.length_singleton]
      omega

/-- A printed integer is split into its sign and its magnitude. -/
theorem splitSign_ofInt (n : Int) : splitSign (ofInt n) = (decide (n < 0), ofNat n.natAbs) := by
  unfold ofInt
  by_cases h : n < 0
  · rw [if_pos h, decide_eq_true h]
    rfl
  · rw [if_neg h, decide_eq_false h]
    exact splitSign_of_opensUnsigned (isDigits_ofNat n.natAbs).opensUnsigned

end Digits

open Digits (IsDigits ofInt ofNat)

/-- A printed integer is read as a decimal without an exponent. -/
theorem Numeral.ofText?_ofInt (n : Int) :
    ofText? (ofInt n) = some (.decimal (decide (n < 0)) ⟨n.natAbs, 0⟩) := by
  have hread := decimalOf?_whole (Digits.ofNat_ne_nil n.natAbs) (Digits.isDigits_ofNat n.natAbs)
    .absent
  rw [List.append_nil, Digits.toNat_ofNat] at hread
  exact ofText?_of_decimalOf? (Digits.splitSign_ofInt n) hread

namespace Binary

variable {F : Format}

/-- An integer of the precision of the format is read as itself. -/
theorem exists_ofText?_ofInt (hwide : F.Wide) {n : Int} (hn : n.natAbs ≤ 2 * F.binadeSize) :
    ∃ number : Binary F, ofText? F (ofInt n) = some number ∧ number.IsInt n := by
  have hlength : Decimal.digitCount n.natAbs ≤ F.binades := by
    have hbound : n.natAbs < 2 ^ (F.fraction + 2) := by
      calc n.natAbs ≤ 2 * F.binadeSize := hn
        _ = 2 ^ (F.fraction + 1) := by
          rw [Nat.pow_succ, Nat.mul_comm]
          rfl
        _ < 2 ^ (F.fraction + 2) := Nat.pow_lt_pow_right (by decide) (by omega)
    have hdigits := Digits.length_ofNat_le (by omega) hbound
    have hlow := hwide.low
    have hhigh := hwide.high
    unfold Decimal.digitCount
    omega
  have hread : ofText? F (ofInt n) =
      some (Decimal.toBinary F (decide (n < 0)) ⟨n.natAbs, 0⟩) := by
    rw [ofText?, Numeral.ofText?_ofInt]
    rfl
  refine ⟨_, hread, ?_⟩
  unfold Decimal.toBinary
  dsimp only
  by_cases hzero : n.natAbs = 0
  · obtain rfl := Int.natAbs_eq_zero.1 hzero
    rw [if_pos hzero]
    exact isInt_round_zero hwide _
  · have hnum : n.natAbs * Nat.pow 10 0 * F.one = n.natAbs * F.one * 1 := by
      rw [Nat.pow_eq, Nat.pow_zero, Nat.mul_one, Nat.mul_one]
    have hround := isInt_round hwide (decide (n < 0)) hn Nat.one_pos hnum
    rw [signed_natAbs] at hround
    rw [if_neg hzero, if_neg (by omega), if_neg (by omega)]
    exact hround

end Binary

end TypedVars
