import Mathlib.Algebra.Order.Round
import Mathlib.Data.Rat.Floor
import TypedVars.Proofs.Number.Integral

/-!
# Quotients of integers

A quotient of integers is rounded to the nearest number, but this number lies on the same side of
every integer and of every half as the quotient itself, as long as the dividend is below
`2 ^ fraction`. So rounding the number to an integer, or truncating it, gives what the exact
quotient gives.
-/

set_option autoImplicit false

namespace TypedVars

/-! ## Integers next to a quotient -/

/-- The nearest integer to a rational number, halves away from zero. -/
def nearestAway (q : ℚ) : ℤ := if q < 0 then -round (-q) else round q

/-- Rounding half away from zero treats both signs alike. -/
theorem nearestAway_neg (q : ℚ) : nearestAway (-q) = -nearestAway q := by
  unfold nearestAway
  rcases lt_trichotomy q 0 with hneg | rfl | hpos
  · rw [if_neg (by linarith), if_pos hneg, neg_neg]
  · simp
  · rw [if_pos (by linarith), if_neg (by linarith), neg_neg]

/-- The nearest integer to a fraction is a quotient of naturals. -/
theorem nearestAway_div (x y : Nat) (hy : 0 < y) :
    nearestAway ((x : ℚ) / y) = ((2 * x + y) / (2 * y) : Nat) := by
  have hnonneg : ¬ (x : ℚ) / y < 0 := not_lt.2 (by positivity)
  have hhalf : (x : ℚ) / y + 1 / 2 = ((2 * x + y : Nat) : ℚ) / ((2 * y : Nat) : ℚ) := by
    have hne : (y : ℚ) ≠ 0 := by positivity
    push_cast
    field_simp
  unfold nearestAway
  rw [if_neg hnonneg, round_eq, hhalf, Rat.floor_natCast_div_natCast]
  norm_cast

/-- The nearest integer to a signed fraction has the sign of the fraction. -/
theorem nearestAway_signed (left right : Bool) (x y : Nat) (hy : 0 < y) :
    nearestAway ((signed left x : ℚ) / (signed right y : ℚ)) =
      signed (left != right) ((2 * x + y) / (2 * y)) := by
  have hdiv := nearestAway_div x y hy
  have hneg : nearestAway (-((x : ℚ) / y)) = -((2 * x + y) / (2 * y) : Nat) := by
    rw [nearestAway_neg, hdiv]
  cases left <;> cases right <;> simp [signed, neg_div, div_neg, hdiv, hneg]

/-- The nearest integer to a quotient exceeds the dividend by one at most, in magnitude. -/
theorem natAbs_nearestAway_le (n m : Int) (hm : m ≠ 0) :
    (nearestAway ((n : ℚ) / m)).natAbs ≤ n.natAbs + 1 := by
  have hy : 0 < m.natAbs := Int.natAbs_pos.2 hm
  have hquotient := nearestAway_signed (decide (n < 0)) (decide (m < 0)) n.natAbs m.natAbs hy
  rw [signed_natAbs, signed_natAbs] at hquotient
  rw [hquotient, natAbs_signed]
  apply Nat.div_le_of_le_mul
  calc 2 * n.natAbs + m.natAbs
      ≤ 2 * (m.natAbs * n.natAbs) + 2 * m.natAbs := by
        have := Nat.le_mul_of_pos_left n.natAbs hy
        omega
    _ = 2 * m.natAbs * (n.natAbs + 1) := by ring

/-- Truncated division divides the magnitudes and combines the signs. -/
theorem tdiv_signed (left right : Bool) (x y : Nat) :
    Int.tdiv (signed left x) (signed right y) = signed (left != right) (x / y) := by
  cases left <;> cases right <;> simp [signed]

/-- A number of halves that is nearer to a quotient than its distance to the next half, and reaches
every half that the quotient reaches, has the same integer parts. -/
theorem div_of_near {x y u half : Nat} (hy : 0 < y)
    (hlow : ∀ t, t * y ≤ 2 * x → t * half ≤ u) (hhigh : u * y < (2 * x + 1) * half) :
    u / (2 * half) = x / y ∧ (2 * u + 2 * half) / (2 * (2 * half)) = (2 * x + y) / (2 * y) := by
  constructor
  · have hfloor : x / y * y ≤ x := Nat.div_mul_le_self x y
    have hceil : x + 1 ≤ y * (x / y + 1) := Nat.lt_mul_div_succ x hy
    generalize x / y = k at *
    apply Nat.div_eq_of_lt_le
    · have hreached := hlow (2 * k) (by linarith)
      linarith
    · apply Nat.lt_of_mul_lt_mul_right (a := y)
      calc u * y < (2 * x + 1) * half := hhigh
        _ ≤ 2 * (y * (k + 1)) * half := Nat.mul_le_mul_right _ (by omega)
        _ = (k + 1) * (2 * half) * y := by ring
  · have hfloor : (2 * x + y) / (2 * y) * (2 * y) ≤ 2 * x + y := Nat.div_mul_le_self _ _
    have hceil : 2 * x + y + 1 ≤ 2 * y * ((2 * x + y) / (2 * y) + 1) :=
      Nat.lt_mul_div_succ (2 * x + y) (by omega)
    generalize (2 * x + y) / (2 * y) = k at *
    apply Nat.div_eq_of_lt_le
    · cases k with
      | zero => simp
      | succ j =>
        -- rounding to `j + 1` means that the half below it is reached
        have hreached := hlow (2 * j + 1) (by linarith)
        linarith
    · have hnear : u + half < (k + 1) * (2 * half) := by
        apply Nat.lt_of_mul_lt_mul_right (a := y)
        calc (u + half) * y = u * y + half * y := Nat.add_mul ..
          _ < (2 * x + 1) * half + half * y := Nat.add_lt_add_right hhigh _
          _ = (2 * x + y + 1) * half := by ring
          _ ≤ 2 * y * (k + 1) * half := Nat.mul_le_mul_right _ hceil
          _ = (k + 1) * (2 * half) * y := by ring
      linarith

/-! ## The nearest number -/

namespace Format

variable {F : Format} {x y : Nat}

/-- In a wide format one is an even number of units. -/
theorem one_eq_two_mul (hwide : F.Wide) : F.one = 2 * 2 ^ (F.scale - 1) := by
  have hscale : F.scale = F.scale - 1 + 1 := by
    have := hwide.low
    omega
  show 2 ^ F.scale = _
  rw [hscale, Nat.pow_succ, Nat.add_sub_cancel, Nat.mul_comm]

/-- The units of one cancel in a quotient. -/
theorem units_div (x y : Nat) : x * F.one * F.one / (y * F.one) = x * F.one / y :=
  Nat.mul_div_mul_right _ _ F.one_pos

/-- A quotient of integers with a small dividend is rounded to halves or finer. -/
theorem coarseness_div_le (hwide : F.Wide) (hx : x < F.binadeSize) :
    F.coarseness (x * F.one * F.one) (y * F.one) ≤ F.scale - 1 := by
  apply F.coarseness_le
  calc x * F.one * F.one / (y * F.one)
      = x * F.one / y := units_div x y
    _ ≤ x * F.one := Nat.div_le_self _ _
    _ < F.binadeSize * F.one := Nat.mul_lt_mul_of_pos_right hx F.one_pos
    _ = 2 * F.binadeSize * 2 ^ (F.scale - 1) := by
      rw [one_eq_two_mul hwide]
      ring

/-- The distance of a quotient to a half that it does not reach is at least `1 / (2 * y)`, and that
is more than half of the spacing at the quotient. -/
theorem mul_spacing_div_lt (hwide : F.Wide) (hx : x < F.binadeSize) (hy : 0 < y)
    (hyle : y ≤ 2 * F.binadeSize) : y * F.spacing (x * F.one * F.one) (y * F.one) < F.one := by
  rcases F.coarseness_eq_zero_or_le (x * F.one * F.one) (y * F.one) with hzero | hle
  · have hprecision : 2 * F.binadeSize < F.one := by
      show 2 * 2 ^ F.fraction < 2 ^ F.scale
      rw [Nat.mul_comm, ← Nat.pow_succ]
      exact Nat.pow_lt_pow_right (by decide) hwide.low
    unfold spacing
    rw [hzero, Nat.pow_zero, Nat.mul_one]
    omega
  · rw [units_div, Nat.le_div_iff_mul_le hy] at hle
    apply Nat.lt_of_mul_lt_mul_left (a := F.binadeSize)
    calc F.binadeSize * (y * F.spacing (x * F.one * F.one) (y * F.one))
        = F.spacing (x * F.one * F.one) (y * F.one) * F.binadeSize * y := by ring
      _ ≤ x * F.one := hle
      _ < F.binadeSize * F.one := Nat.mul_lt_mul_of_pos_right hx F.one_pos

/-- The halves that a quotient reaches are reached by the rounded quotient. -/
theorem le_units_div (hwide : F.Wide) (hx : x < F.binadeSize) (hy : 0 < y) {t : Nat}
    (ht : t * y ≤ 2 * x) :
    t * 2 ^ (F.scale - 1) ≤ F.units (F.nearestRank (x * F.one * F.one) (y * F.one)) := by
  apply F.le_units_nearestRank (Nat.mul_pos hy F.one_pos)
  · exact Dvd.dvd.mul_left (Nat.pow_dvd_pow 2 (coarseness_div_le hwide hx)) t
  · calc t * 2 ^ (F.scale - 1) * (y * F.one)
        = t * y * (2 ^ (F.scale - 1) * F.one) := by ring
      _ ≤ 2 * x * (2 ^ (F.scale - 1) * F.one) := Nat.mul_le_mul_right _ ht
      _ = x * (2 * 2 ^ (F.scale - 1)) * F.one := by ring
      _ = x * F.one * F.one := by rw [← one_eq_two_mul hwide]

/-- A rounded quotient stays below the quotient of a dividend that is greater by a half. -/
theorem units_div_lt (hwide : F.Wide) (hx : x < F.binadeSize) (hy : 0 < y)
    (hyle : y ≤ 2 * F.binadeSize) :
    F.units (F.nearestRank (x * F.one * F.one) (y * F.one)) * y <
      (2 * x + 1) * 2 ^ (F.scale - 1) := by
  obtain ⟨-, herror⟩ :=
    F.units_nearestRank_error (x * F.one * F.one) (Nat.mul_pos hy F.one_pos)
  have hspacing := mul_spacing_div_lt hwide hx hy hyle
  have hhalf := one_eq_two_mul hwide
  generalize F.units (F.nearestRank (x * F.one * F.one) (y * F.one)) = u at *
  generalize F.spacing (x * F.one * F.one) (y * F.one) = spacing at *
  have hscaled : 2 * (u * y) < (2 * x + 1) * F.one := by
    apply Nat.lt_of_mul_lt_mul_right (a := F.one)
    calc 2 * (u * y) * F.one
        = 2 * (u * (y * F.one)) := by ring
      _ ≤ 2 * (x * F.one * F.one) + y * F.one * spacing := herror
      _ = 2 * (x * F.one * F.one) + y * spacing * F.one := by ring
      _ < 2 * (x * F.one * F.one) + F.one * F.one :=
        Nat.add_lt_add_left (Nat.mul_lt_mul_of_pos_right hspacing F.one_pos) _
      _ = (2 * x + 1) * F.one * F.one := by ring
  have hdouble : (2 * x + 1) * F.one = 2 * ((2 * x + 1) * 2 ^ (F.scale - 1)) := by
    rw [hhalf]
    ring
  omega

end Format

/-- Truncated or rounded to an integer, the quotient of two numbers is what the exact quotient of
their integers is, if the dividend is below `2 ^ fraction`. -/
theorem Binary.IsInt.div {F : Format} (hwide : F.Wide) {left right : Binary F} {n m : Int}
    (hleft : left.IsInt n) (hright : right.IsInt m) (hn : n.natAbs < F.binadeSize) (hm : m ≠ 0)
    (hmle : m.natAbs ≤ 2 * F.binadeSize) :
    (Binary.div left right).truncateToInt? = some (Int.tdiv n m) ∧
      (Binary.div left right).roundToInt? = some (nearestAway ((n : ℚ) / m)) := by
  cases hleft with
  | @intro leftSign leftRank x hunits =>
  cases hright with
  | @intro rightSign rightRank y hother =>
  rw [natAbs_signed] at hn hmle
  have hy : 0 < y := by
    apply Nat.pos_of_ne_zero
    rintro rfl
    exact hm (signed_zero rightSign)
  have hne : F.units rightRank ≠ 0 := by
    rw [hother]
    exact Nat.mul_ne_zero (Nat.ne_of_gt hy) (Nat.ne_of_gt F.one_pos)
  have hcount : F.nearestRank (x * F.one * F.one) (y * F.one) < F.count := by
    apply F.nearestRank_lt_count
    have hcoarse := Format.coarseness_div_le (y := y) hwide hn
    have := hwide.high
    omega
  have hdiv : Binary.div (.finite leftSign leftRank) (.finite rightSign rightRank) =
      .finite (leftSign != rightSign) ⟨F.nearestRank (x * F.one * F.one) (y * F.one), hcount⟩ := by
    unfold Binary.div
    dsimp only
    rw [if_neg hne, hunits, hother, Binary.round_eq_finite hcount]
  obtain ⟨htruncated, hrounded⟩ := div_of_near hy (fun t ht => Format.le_units_div hwide hn hy ht)
    (Format.units_div_lt hwide hn hy hmle)
  rw [← Format.one_eq_two_mul hwide] at htruncated hrounded
  rw [hdiv, tdiv_signed, nearestAway_signed _ _ _ _ hy, ← htruncated, ← hrounded]
  exact ⟨rfl, rfl⟩

end TypedVars
