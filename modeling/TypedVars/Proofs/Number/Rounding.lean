import Mathlib.Algebra.Order.Ring.Nat
import Mathlib.Tactic.Ring
import Mathlib.Tactic.Linarith
import TypedVars.Number.Binary

/-!
# Rounding to the nearest magnitude

The magnitudes near a quotient are multiples of a power of two, their spacing. A quotient is rounded
to the nearest multiple of it, so that the error is at most half the spacing, a multiple below the
quotient is not undercut, and a quotient that is itself a magnitude is kept.
-/

set_option autoImplicit false

namespace TypedVars

/-! ## The nearest natural number -/

/-- Rounded division is not below division. -/
theorem div_le_divNearestEven (num den : Nat) : num / den ≤ divNearestEven num den := by
  unfold divNearestEven
  dsimp only
  split_ifs <;> omega

/-- Rounded division is at most one above division. -/
theorem divNearestEven_le (num den : Nat) : divNearestEven num den ≤ num / den + 1 := by
  unfold divNearestEven
  dsimp only
  split_ifs <;> omega

/-- The nearest natural number is at most one half away from the quotient. -/
theorem divNearestEven_error (num den : Nat) (hden : 0 < den) :
    2 * num ≤ 2 * (divNearestEven num den * den) + den ∧
      2 * (divNearestEven num den * den) ≤ 2 * num + den := by
  have hdivision := Nat.div_add_mod num den
  have hmod := Nat.mod_lt num hden
  rw [Nat.mul_comm] at hdivision
  have hsucc : (num / den + 1) * den = num / den * den + den := Nat.succ_mul _ _
  unfold divNearestEven
  dsimp only
  split_ifs <;> omega

/-- A quotient without a remainder is kept. -/
theorem divNearestEven_mul (count : Nat) {den : Nat} (hden : 0 < den) :
    divNearestEven (count * den) den = count := by
  unfold divNearestEven
  dsimp only
  rw [Nat.mul_mod_left, Nat.mul_zero, if_pos hden, Nat.mul_div_cancel _ hden]

namespace Format

variable (F : Format)

/-- A binade is not empty. -/
theorem binadeSize_pos : 0 < F.binadeSize := Nat.two_pow_pos F.fraction

/-- One is a positive number of units. -/
theorem one_pos : 0 < F.one := Nat.two_pow_pos F.scale

/-! ## Spacing -/

/-- The binary logarithm of the spacing at a quotient. -/
def coarseness (num den : Nat) : Nat := (num / den).log2 - F.fraction

/-- The distance between neighbouring magnitudes at a quotient, in units. -/
def spacing (num den : Nat) : Nat := 2 ^ F.coarseness num den

variable {num den : Nat}

/-- The spacing of ranks is positive. -/
theorem spacing_pos (num den : Nat) : 0 < F.spacing num den := Nat.two_pow_pos _

/-- Above the first binades the quotient is at least `2 ^ fraction` times the spacing. -/
theorem coarseness_eq_zero_or_le (num den : Nat) :
    F.coarseness num den = 0 ∨ F.spacing num den * F.binadeSize ≤ num / den := by
  by_cases h : F.coarseness num den = 0
  · exact .inl h
  · have hlog : F.coarseness num den + F.fraction = (num / den).log2 := by
      unfold coarseness at h ⊢
      omega
    have hne : num / den ≠ 0 := by
      intro hzero
      rw [hzero, Nat.log2_zero] at hlog
      omega
    have hle : 2 ^ (F.coarseness num den + F.fraction) ≤ num / den := by
      rw [hlog]
      exact Nat.log2_self_le hne
    rw [Nat.pow_add] at hle
    exact .inr hle

/-- The quotient is below `2 ^ (fraction + 1)` times the spacing. -/
theorem div_lt : num / den < 2 * F.binadeSize * F.spacing num den := by
  have hlog : num / den < 2 ^ ((num / den).log2 + 1) := Nat.lt_log2_self
  have hexponent : (num / den).log2 + 1 ≤ F.fraction + 1 + F.coarseness num den := by
    unfold coarseness
    omega
  have hle : 2 ^ ((num / den).log2 + 1) ≤ 2 ^ (F.fraction + 1 + F.coarseness num den) :=
    Nat.pow_le_pow_right (by decide) hexponent
  have hpow : 2 ^ (F.fraction + 1 + F.coarseness num den) =
      2 * F.binadeSize * F.spacing num den := by
    rw [Nat.pow_add, Nat.pow_succ, Nat.mul_comm (2 ^ F.fraction)]
    rfl
  omega

/-- The spacing at a quotient below a bound. -/
theorem coarseness_le {exponent : Nat} (h : num / den < 2 * F.binadeSize * 2 ^ exponent) :
    F.coarseness num den ≤ exponent := by
  rcases F.coarseness_eq_zero_or_le num den with hzero | hle
  · omega
  · have hlt : 2 ^ F.coarseness num den < 2 ^ (exponent + 1) := by
      apply Nat.lt_of_mul_lt_mul_right (a := F.binadeSize)
      calc 2 ^ F.coarseness num den * F.binadeSize
          ≤ num / den := hle
        _ < 2 * F.binadeSize * 2 ^ exponent := h
        _ = 2 ^ (exponent + 1) * F.binadeSize := by ring
    have := (Nat.pow_lt_pow_iff_right (by decide)).1 hlt
    omega

/-! ## Ranks -/

/-- The magnitude of a rank, given as a number of spacings. The first rank of a binade is also the
one behind the last of the binade before. -/
theorem units_add {coarse place : Nat} (hplace : place ≤ 2 * F.binadeSize)
    (hnormal : coarse = 0 ∨ F.binadeSize ≤ place) :
    F.units (coarse * F.binadeSize + place) = place * 2 ^ coarse := by
  have hpos := F.binadeSize_pos
  have hrank (binade rest : Nat) (hrest : rest < F.binadeSize) :
      F.units (binade * F.binadeSize + rest) =
        if binade = 0 then rest else (F.binadeSize + rest) * 2 ^ (binade - 1) := by
    have hdiv : (binade * F.binadeSize + rest) / F.binadeSize = binade := by
      rw [Nat.mul_comm, Nat.mul_add_div hpos, Nat.div_eq_of_lt hrest, Nat.add_zero]
    have hmod : (binade * F.binadeSize + rest) % F.binadeSize = rest := by
      rw [Nat.mul_comm, Nat.mul_add_mod, Nat.mod_eq_of_lt hrest]
    unfold units
    rw [hdiv, hmod]
    rfl
  rcases Nat.lt_or_ge place F.binadeSize with hlow | hhigh
  · obtain rfl : coarse = 0 := hnormal.resolve_right (Nat.not_le.2 hlow)
    rw [hrank 0 place hlow, if_pos rfl, Nat.pow_zero, Nat.mul_one]
  rcases Nat.lt_or_ge place (2 * F.binadeSize) with hinside | hend
  · have hsplit : coarse * F.binadeSize + place =
        (coarse + 1) * F.binadeSize + (place - F.binadeSize) := by
      rw [Nat.succ_mul]
      omega
    have hsum : F.binadeSize + (place - F.binadeSize) = place := by omega
    rw [hsplit, hrank _ _ (by omega), if_neg (Nat.succ_ne_zero coarse), hsum, Nat.add_sub_cancel]
  · -- the place behind the binade is the first rank of the next one
    obtain rfl : place = 2 * F.binadeSize := Nat.le_antisymm hplace hend
    have hsplit : coarse * F.binadeSize + 2 * F.binadeSize = (coarse + 2) * F.binadeSize + 0 := by
      ring
    have hexponent : coarse + 2 - 1 = coarse + 1 := by omega
    rw [hsplit, hrank _ _ hpos, if_neg (Nat.succ_ne_zero (coarse + 1)), hexponent]
    ring

/-- A rank, given by the coarseness at its magnitude and the number of spacings. -/
theorem exists_place (rank : Nat) : ∃ coarse place, rank = coarse * F.binadeSize + place ∧
    place < 2 * F.binadeSize ∧ (coarse = 0 ∨ F.binadeSize ≤ place) := by
  have hdivision := Nat.div_add_mod rank F.binadeSize
  have hmod := Nat.mod_lt rank F.binadeSize_pos
  rcases Nat.eq_zero_or_pos (rank / F.binadeSize) with hzero | hpos
  · rw [hzero, Nat.mul_zero] at hdivision
    exact ⟨0, rank, by omega, by omega, .inl rfl⟩
  · obtain ⟨coarse, hcoarse⟩ := Nat.exists_eq_add_one.2 hpos
    rw [hcoarse] at hdivision
    refine ⟨coarse, F.binadeSize + rank % F.binadeSize, ?_, by omega, .inr (by omega)⟩
    calc rank = F.binadeSize * (coarse + 1) + rank % F.binadeSize := hdivision.symm
      _ = coarse * F.binadeSize + (F.binadeSize + rank % F.binadeSize) := by ring

/-- The next rank has a greater magnitude. -/
theorem units_strictMono : StrictMono F.units := by
  apply strictMono_nat_of_lt_succ
  intro rank
  obtain ⟨coarse, place, rfl, hplace, hnormal⟩ := F.exists_place rank
  rw [Nat.add_assoc, F.units_add hplace.le hnormal,
    F.units_add hplace (hnormal.imp_right Nat.le_succ_of_le)]
  exact Nat.mul_lt_mul_of_pos_right (Nat.lt_succ_self place) (Nat.two_pow_pos coarse)

/-- A quotient is rounded to a number of spacings that its binade holds. -/
theorem divNearestEven_spacing (num den : Nat) :
    divNearestEven num (den * F.spacing num den) ≤ 2 * F.binadeSize ∧
      (F.coarseness num den = 0 ∨
        F.binadeSize ≤ divNearestEven num (den * F.spacing num den)) := by
  have hpos := F.spacing_pos num den
  have hfloor : num / (den * F.spacing num den) < 2 * F.binadeSize := by
    rw [← Nat.div_div_eq_div_mul, Nat.div_lt_iff_lt_mul hpos]
    exact F.div_lt
  constructor
  · have := divNearestEven_le num (den * F.spacing num den)
    omega
  · apply (F.coarseness_eq_zero_or_le num den).imp_right
    intro hle
    have hbinade : F.binadeSize ≤ num / (den * F.spacing num den) := by
      rw [← Nat.div_div_eq_div_mul, Nat.le_div_iff_mul_le hpos, Nat.mul_comm]
      exact hle
    exact hbinade.trans (div_le_divNearestEven _ _)

/-- The nearest rank is the start of a binade and the rounded quotient by its spacing. -/
theorem nearestRank_eq : F.nearestRank num den =
    F.coarseness num den * F.binadeSize + divNearestEven num (den * F.spacing num den) := rfl

/-- The nearest magnitude is the nearest number of spacings. -/
theorem units_nearestRank : F.units (F.nearestRank num den) =
    divNearestEven num (den * F.spacing num den) * F.spacing num den := by
  obtain ⟨hle, hnormal⟩ := F.divNearestEven_spacing num den
  rw [nearestRank_eq, F.units_add hle hnormal]
  rfl

/-- A fraction two binades below the end of the range has a rank within it. -/
theorem nearestRank_lt_count (h : F.coarseness num den + 2 < F.binades) :
    F.nearestRank num den < F.count := by
  obtain ⟨hle, -⟩ := F.divNearestEven_spacing num den
  calc F.nearestRank num den
      ≤ F.coarseness num den * F.binadeSize + 2 * F.binadeSize := by
        rw [nearestRank_eq]
        omega
    _ = (F.coarseness num den + 2) * F.binadeSize := by ring
    _ < F.count := Nat.mul_lt_mul_of_pos_right h F.binadeSize_pos

/-! ## Error -/

/-- The nearest magnitude is at most half a spacing away from the quotient. -/
theorem units_nearestRank_error (num : Nat) (hden : 0 < den) :
    2 * num ≤ 2 * (F.units (F.nearestRank num den) * den) + den * F.spacing num den ∧
      2 * (F.units (F.nearestRank num den) * den) ≤ 2 * num + den * F.spacing num den := by
  have hpos : 0 < den * F.spacing num den := Nat.mul_pos hden (F.spacing_pos num den)
  have herror := divNearestEven_error num (den * F.spacing num den) hpos
  have hunits : F.units (F.nearestRank num den) * den =
      divNearestEven num (den * F.spacing num den) * (den * F.spacing num den) := by
    rw [F.units_nearestRank]
    ring
  rw [hunits]
  exact herror

/-- A multiple of the spacing that the quotient reaches is reached by the nearest magnitude. -/
theorem le_units_nearestRank {bound : Nat} (hden : 0 < den) (hdvd : F.spacing num den ∣ bound)
    (h : bound * den ≤ num) : bound ≤ F.units (F.nearestRank num den) := by
  obtain ⟨count, rfl⟩ := hdvd
  have hpos : 0 < den * F.spacing num den := Nat.mul_pos hden (F.spacing_pos num den)
  have hfloor : count ≤ num / (den * F.spacing num den) := by
    rw [Nat.le_div_iff_mul_le hpos]
    calc count * (den * F.spacing num den)
        = F.spacing num den * count * den := by ring
      _ ≤ num := h
  rw [F.units_nearestRank, Nat.mul_comm]
  exact Nat.mul_le_mul_right _ (hfloor.trans (div_le_divNearestEven _ _))

/-- A magnitude is a multiple of the spacing at it. -/
theorem spacing_dvd {place exponent : Nat} (hplace : place ≤ 2 * F.binadeSize)
    (hquotient : num / den = place * 2 ^ exponent) :
    F.spacing num den ∣ place * 2 ^ exponent := by
  rcases Nat.lt_or_ge exponent (F.coarseness num den) with hlt | hge
  · -- the magnitude is then the first of the binade with that spacing
    have hle : F.spacing num den * F.binadeSize ≤ place * 2 ^ exponent := by
      rw [← hquotient]
      exact (F.coarseness_eq_zero_or_le num den).resolve_left (by omega)
    have hstep : 2 * 2 ^ exponent ≤ F.spacing num den := by
      rw [Nat.mul_comm, ← Nat.pow_succ]
      exact Nat.pow_le_pow_right (by decide) hlt
    have hlow : F.binadeSize * (2 * 2 ^ exponent) ≤ F.binadeSize * F.spacing num den :=
      Nat.mul_le_mul_left _ hstep
    have hhigh : place * 2 ^ exponent ≤ 2 * F.binadeSize * 2 ^ exponent :=
      Nat.mul_le_mul_right _ hplace
    have heq : place * 2 ^ exponent = F.spacing num den * F.binadeSize := by
      apply Nat.le_antisymm _ hle
      calc place * 2 ^ exponent
          ≤ 2 * F.binadeSize * 2 ^ exponent := hhigh
        _ = F.binadeSize * (2 * 2 ^ exponent) := by ring
        _ ≤ F.binadeSize * F.spacing num den := hlow
        _ = F.spacing num den * F.binadeSize := Nat.mul_comm _ _
    rw [heq]
    exact Nat.dvd_mul_right _ _
  · exact Dvd.dvd.mul_left (Nat.pow_dvd_pow 2 hge) place

/-- A quotient that is a magnitude is kept. -/
theorem units_nearestRank_of_eq {place exponent : Nat} (hden : 0 < den)
    (hplace : place ≤ 2 * F.binadeSize) (h : num = place * 2 ^ exponent * den) :
    F.units (F.nearestRank num den) = place * 2 ^ exponent := by
  have hquotient : num / den = place * 2 ^ exponent := by
    rw [h, Nat.mul_div_cancel _ hden]
  obtain ⟨count, hcount⟩ := F.spacing_dvd hplace hquotient
  have hnum : num = count * (den * F.spacing num den) := by
    calc num = F.spacing num den * count * den := by rw [← hcount, h]
      _ = count * (den * F.spacing num den) := by ring
  have hpos : 0 < den * F.spacing num den := Nat.mul_pos hden (F.spacing_pos num den)
  have hcounted : divNearestEven num (den * F.spacing num den) = count := by
    conv_lhs => arg 1; rw [hnum]
    exact divNearestEven_mul count hpos
  rw [F.units_nearestRank, hcounted, hcount, Nat.mul_comm]

/-- The rank nearest to the units of a rank is that rank. -/
theorem nearestRank_units (rank : Nat) : F.nearestRank (F.units rank) 1 = rank := by
  obtain ⟨coarse, place, rfl, hplace, hnormal⟩ := F.exists_place rank
  apply F.units_strictMono.injective
  have hunits := F.units_add hplace.le hnormal
  rw [F.units_nearestRank_of_eq Nat.one_pos hplace.le (by rw [hunits, Nat.mul_one]), hunits]

end Format

end TypedVars
