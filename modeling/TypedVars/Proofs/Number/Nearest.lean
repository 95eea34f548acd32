import TypedVars.Proofs.Number.Rounding

/-!
# The nearest magnitude

The magnitude nearest to a quotient depends on the value of the quotient only. A quotient on one
side of the middle between two neighbouring magnitudes is rounded to the one on that side or beyond
it, so a greater quotient has no smaller nearest magnitude. A quotient below half a unit is nearest
to zero, and one behind the last binade is nearest to no finite magnitude.
-/

set_option autoImplicit false

namespace TypedVars

/-- Rounded division does not change when both numbers are multiplied by a factor. -/
theorem divNearestEven_mul_right (num den : Nat) {factor : Nat} (h : 0 < factor) :
    divNearestEven (num * factor) (den * factor) = divNearestEven num den := by
  have hfloor : num * factor / (den * factor) = num / den := Nat.mul_div_mul_right _ _ h
  have hrest : num * factor % (den * factor) = num % den * factor := Nat.mul_mod_mul_right _ _ _
  have hbelow : 2 * (num % den * factor) < den * factor ↔ 2 * (num % den) < den := by
    rw [← Nat.mul_assoc, Nat.mul_lt_mul_right h]
  have habove : den * factor < 2 * (num % den * factor) ↔ den < 2 * (num % den) := by
    rw [← Nat.mul_assoc, Nat.mul_lt_mul_right h]
  unfold divNearestEven
  simp only [hfloor, hrest, hbelow, habove]

namespace Format

variable (F : Format) {num den otherNum otherDen rank : Nat}

/-- The nearest rank of a fraction does not change when the fraction is expanded. -/
theorem nearestRank_mul_right (num den : Nat) {factor : Nat} (h : 0 < factor) :
    F.nearestRank (num * factor) (den * factor) = F.nearestRank num den := by
  have hcoarse : F.coarseness (num * factor) (den * factor) = F.coarseness num den := by
    rw [coarseness, coarseness, Nat.mul_div_mul_right _ _ h]
  have hspacing : den * factor * F.spacing num den = den * F.spacing num den * factor := by ring
  rw [nearestRank_eq, nearestRank_eq, spacing, hcoarse, ← spacing, hspacing,
    divNearestEven_mul_right _ _ h]

/-- Equal fractions have the same nearest rank. -/
theorem nearestRank_of_mul_eq (hden : 0 < den) (hother : 0 < otherDen)
    (h : num * otherDen = otherNum * den) :
    F.nearestRank num den = F.nearestRank otherNum otherDen := by
  rw [← F.nearestRank_mul_right num den hother, ← F.nearestRank_mul_right otherNum otherDen hden,
    h, Nat.mul_comm den]

/-! ## Between neighbours -/

/-- Two neighbours differ by a power of two, and the greater one belongs to a binade of that
spacing or ends it. -/
theorem exists_gap (rank : Nat) :
    ∃ exponent, F.units (rank + 1) = F.units rank + 2 ^ exponent ∧
      F.units (rank + 1) ≤ 2 * F.binadeSize * 2 ^ exponent := by
  obtain ⟨coarse, place, rfl, hplace, hnormal⟩ := F.exists_place rank
  have hlower := F.units_add hplace.le hnormal
  have hupper := F.units_add hplace (hnormal.imp_right Nat.le_succ_of_le)
  refine ⟨coarse, ?_, ?_⟩
  · rw [Nat.add_assoc, hlower, hupper, Nat.succ_mul]
  · rw [Nat.add_assoc, hupper]
    exact Nat.mul_le_mul_right _ hplace

/-- A quotient below the middle is not rounded to the greater neighbour. -/
theorem nearestRank_le_of_lt_middle (hden : 0 < den)
    (h : 2 * num < (F.units rank + F.units (rank + 1)) * den) : F.nearestRank num den ≤ rank := by
  obtain ⟨exponent, hgap, hbinade⟩ := F.exists_gap rank
  have hbelow : num < F.units (rank + 1) * den := by
    rw [Nat.add_mul] at h
    have hstep : F.units rank * den ≤ F.units (rank + 1) * den :=
      Nat.mul_le_mul_right _ (F.units_strictMono (Nat.lt_succ_self rank)).le
    omega
  have hspacing : F.spacing num den ≤ 2 ^ exponent := by
    apply Nat.pow_le_pow_right (by decide)
    apply F.coarseness_le
    rw [Nat.div_lt_iff_lt_mul hden]
    exact hbelow.trans_le (Nat.mul_le_mul_right _ hbinade)
  by_contra hlt
  have hreached : F.units (rank + 1) ≤ F.units (F.nearestRank num den) :=
    F.units_strictMono.monotone (Nat.lt_of_not_le hlt)
  have herror := (F.units_nearestRank_error num hden).2
  have hscaled : F.units (rank + 1) * den ≤ F.units (F.nearestRank num den) * den :=
    Nat.mul_le_mul_right _ hreached
  have hhalf : den * F.spacing num den ≤ den * 2 ^ exponent := Nat.mul_le_mul_left _ hspacing
  rw [hgap] at h hscaled
  simp only [Nat.add_mul, Nat.mul_comm (2 ^ exponent)] at h hscaled
  omega

/-- A quotient above the middle is not rounded to the smaller neighbour. -/
theorem lt_nearestRank_of_middle_lt (hden : 0 < den)
    (h : (F.units rank + F.units (rank + 1)) * den < 2 * num) : rank < F.nearestRank num den := by
  obtain ⟨exponent, hgap, hbinade⟩ := F.exists_gap rank
  by_contra hle
  have hmissed : F.units (F.nearestRank num den) ≤ F.units rank :=
    F.units_strictMono.monotone (Nat.le_of_not_lt hle)
  rcases Nat.lt_or_ge exponent (F.coarseness num den) with hrough | hfine
  · -- the quotient is in a later binade, of which the beginning is reached
    have hbegin := (F.coarseness_eq_zero_or_le num den).resolve_left (by omega)
    rw [Nat.le_div_iff_mul_le hden] at hbegin
    have hreached := F.le_units_nearestRank hden (Nat.dvd_mul_right _ _) hbegin
    have hdouble : 2 ^ exponent * 2 ≤ F.spacing num den := by
      rw [← Nat.pow_succ]
      exact Nat.pow_le_pow_right (by decide) hrough
    have hpos := Nat.two_pow_pos exponent
    have hupper : F.units (rank + 1) ≤ F.spacing num den * F.binadeSize := by
      calc F.units (rank + 1) ≤ 2 * F.binadeSize * 2 ^ exponent := hbinade
        _ = 2 ^ exponent * 2 * F.binadeSize := by ring
        _ ≤ F.spacing num den * F.binadeSize := Nat.mul_le_mul_right _ hdouble
    omega
  · have hspacing : F.spacing num den ≤ 2 ^ exponent := Nat.pow_le_pow_right (by decide) hfine
    have herror := (F.units_nearestRank_error num hden).1
    have hscaled : F.units (F.nearestRank num den) * den ≤ F.units rank * den :=
      Nat.mul_le_mul_right _ hmissed
    have hhalf : den * F.spacing num den ≤ den * 2 ^ exponent := Nat.mul_le_mul_left _ hspacing
    rw [hgap] at h
    simp only [Nat.add_mul, Nat.mul_comm (2 ^ exponent)] at h
    omega

/-- A greater quotient has no smaller nearest magnitude. -/
theorem nearestRank_mono (hden : 0 < den) (hother : 0 < otherDen)
    (h : num * otherDen ≤ otherNum * den) :
    F.nearestRank num den ≤ F.nearestRank otherNum otherDen := by
  rcases h.eq_or_lt with hequal | hless
  · exact (F.nearestRank_of_mul_eq hden hother hequal).le
  by_contra hlt
  -- the middle behind the greater quotient's rank is not below it, and not above the smaller one
  generalize hrank : F.nearestRank otherNum otherDen = rank at hlt
  have hsmaller := mt (F.nearestRank_le_of_lt_middle hden) hlt
  have hgreater := mt (F.lt_nearestRank_of_middle_lt hother) (Nat.not_lt.2 hrank.le)
  generalize F.units rank + F.units (rank + 1) = middle at hsmaller hgreater
  apply hless.not_ge
  apply Nat.le_of_mul_le_mul_left _ (Nat.two_pos)
  calc 2 * (otherNum * den) = 2 * otherNum * den := by ring
    _ ≤ middle * otherDen * den := Nat.mul_le_mul_right _ (Nat.le_of_not_lt hgreater)
    _ = middle * den * otherDen := by ring
    _ ≤ 2 * num * otherDen := Nat.mul_le_mul_right _ (Nat.le_of_not_lt hsmaller)
    _ = 2 * (num * otherDen) := by ring

/-! ## Near a magnitude -/

/-- A quotient not much greater than a magnitude is rounded to no greater one. -/
theorem nearestRank_le_of_lt (hden : 0 < den)
    (h : 4 * F.binadeSize * num < (4 * F.binadeSize + 1) * (F.units rank * den)) :
    F.nearestRank num den ≤ rank := by
  obtain ⟨exponent, hgap, hbinade⟩ := F.exists_gap rank
  apply F.nearestRank_le_of_lt_middle hden
  apply Nat.lt_of_mul_lt_mul_left (a := 2 * F.binadeSize)
  have hscaled : F.units rank * den ≤ 2 * F.binadeSize * 2 ^ exponent * den :=
    Nat.mul_le_mul_right _ ((F.units_strictMono (Nat.lt_succ_self rank)).le.trans hbinade)
  calc 2 * F.binadeSize * (2 * num) = 4 * F.binadeSize * num := by ring
    _ < (4 * F.binadeSize + 1) * (F.units rank * den) := h
    _ = 2 * F.binadeSize * (2 * F.units rank) * den + F.units rank * den := by ring
    _ ≤ 2 * F.binadeSize * (2 * F.units rank) * den + 2 * F.binadeSize * 2 ^ exponent * den :=
      Nat.add_le_add_left hscaled _
    _ = 2 * F.binadeSize * ((F.units rank + F.units (rank + 1)) * den) := by
      rw [hgap]
      ring

/-- A quotient not much smaller than a magnitude is rounded to no smaller one. -/
theorem le_nearestRank_of_lt (hden : 0 < den)
    (h : 4 * F.binadeSize * (F.units rank * den) < 4 * F.binadeSize * num + F.units rank * den) :
    rank ≤ F.nearestRank num den := by
  cases rank with
  | zero => exact Nat.zero_le _
  | succ rank =>
    obtain ⟨exponent, hgap, hbinade⟩ := F.exists_gap rank
    apply F.lt_nearestRank_of_middle_lt hden
    apply Nat.lt_of_mul_lt_mul_left (a := 2 * F.binadeSize)
    have hscaled : F.units (rank + 1) * den ≤ 2 * F.binadeSize * 2 ^ exponent * den :=
      Nat.mul_le_mul_right _ hbinade
    have hsum : 2 * F.binadeSize * ((F.units rank + F.units (rank + 1)) * den) +
        2 * F.binadeSize * 2 ^ exponent * den = 4 * F.binadeSize * (F.units (rank + 1) * den) := by
      rw [hgap]
      ring
    have hnum : 2 * F.binadeSize * (2 * num) = 4 * F.binadeSize * num := by ring
    omega

/-! ## Beyond the magnitudes -/

/-- A quotient below one half is nearest to zero. -/
theorem nearestRank_eq_zero (h : 2 * num < den) : F.nearestRank num den = 0 := by
  have hone : 0 < F.units 0 + F.units (0 + 1) :=
    Nat.add_pos_right _ (Nat.zero_lt_of_lt (F.units_strictMono (Nat.lt_succ_self 0)))
  apply Nat.le_zero.1
  apply F.nearestRank_le_of_lt_middle (Nat.zero_lt_of_lt h)
  calc 2 * num < den := h
    _ ≤ (F.units 0 + F.units (0 + 1)) * den := Nat.le_mul_of_pos_left _ hone

/-- A quotient behind the last binade is nearest to no finite magnitude. -/
theorem count_le_nearestRank (h : 2 ^ (F.binades + F.fraction) ≤ num / den) :
    F.count ≤ F.nearestRank num den := by
  have hne : num / den ≠ 0 := by
    have := Nat.two_pow_pos (F.binades + F.fraction)
    omega
  have hlog : F.binades + F.fraction ≤ (num / den).log2 := (Nat.le_log2 hne).2 h
  have hcoarse : F.binades ≤ F.coarseness num den := by
    unfold coarseness
    omega
  calc F.count ≤ F.coarseness num den * F.binadeSize := Nat.mul_le_mul_right _ hcoarse
    _ ≤ F.nearestRank num den := Nat.le_add_right _ _

end Format

end TypedVars
