import Mathlib.Algebra.Order.Floor.Semifield
import Mathlib.Data.Int.Log
import Mathlib.Data.Nat.Prime.Basic
import TypedVars.Proofs.Number.Shortest

/-!
# Shortest decimals are shortest

No decimal with fewer digits is read as a magnitude than the one that is chosen for it, and the
chosen one has no trailing zeros. The decimals that are read as a magnitude are convex: what is
between two of them is one of them. So whenever one decimal on a grid is read as the magnitude, so
is a neighbour of the magnitude on this grid, and the search misses none. On the grid of seventeen
digits a neighbour is always near enough, so that the search ends before the exact decimal.
-/

set_option autoImplicit false

namespace TypedVars

namespace Decimal

/-! ## Trailing zeros -/

/-- Trimming zeros never makes a coefficient greater. -/
theorem coefficient_trimFrom_le (fuel : Nat) (d : Decimal) :
    (trimFrom fuel d).coefficient ≤ d.coefficient := by
  induction fuel generalizing d with
  | zero => exact Nat.le_refl _
  | succ fuel ih =>
    rw [trimFrom]
    split
    · exact (ih _).trans (Nat.div_le_self _ _)
    · exact Nat.le_refl _

/-- A coefficient that has been trimmed with enough fuel ends in no zero. -/
theorem coefficient_trimFrom_mod {fuel : Nat} {d : Decimal} (hne : d.coefficient ≠ 0)
    (h : d.coefficient < 10 ^ fuel) : (trimFrom fuel d).coefficient % 10 ≠ 0 := by
  induction fuel generalizing d with
  | zero =>
    rw [Nat.pow_zero] at h
    omega
  | succ fuel ih =>
    rw [trimFrom]
    split
    · next hzero =>
      apply ih
      · dsimp only
        omega
      · exact Nat.div_lt_of_lt_mul (by rwa [← Nat.pow_succ'])
    · next hlast => exact fun hzero => hlast ⟨hne, hzero⟩

/-- A trimmed coefficient has no trailing zero. -/
theorem coefficient_trim_mod {d : Decimal} (hne : d.coefficient ≠ 0) :
    d.trim.coefficient % 10 ≠ 0 :=
  coefficient_trimFrom_mod hne (lt_pow_digitCount _)

/-- A number below a power of ten has no more digits than its exponent. -/
theorem digitCount_le {n count : Nat} (hcount : 0 < count) (h : n < 10 ^ count) :
    digitCount n ≤ count := by
  rcases Nat.eq_zero_or_pos n with rfl | hpos
  · rw [digitCount_eq, Nat.log_zero_right]
    exact hcount
  · rw [digitCount_eq]
    exact Nat.log_lt_of_lt_pow hpos.ne' h

/-- A power of ten has one digit when it is trimmed, so it counts as one of fewer digits. -/
theorem digitCount_trim_le {d : Decimal} {count : Nat} (hcount : 0 < count)
    (h : d.coefficient ≤ 10 ^ count) : digitCount d.trim.coefficient ≤ count := by
  apply digitCount_le hcount
  have htrim : d.trim.coefficient ≤ d.coefficient := coefficient_trimFrom_le _ d
  apply Nat.lt_of_le_of_ne (htrim.trans h)
  intro hpower
  have hne : d.coefficient ≠ 0 := by
    have := Nat.pow_pos (n := count) (show 0 < 10 by decide)
    omega
  apply coefficient_trim_mod hne
  rw [hpower]
  exact Nat.mod_eq_zero_of_dvd (dvd_pow_self 10 hcount.ne')

end Decimal

namespace Format

variable {F : Format} {rank : Fin F.count}

/-! ## Decimals that read back -/

/-- What is between two decimals that read back does so, too. -/
theorem readsBack_of_between (hwide : F.Wide) {low high d : Decimal}
    (hlow : F.readsBack rank low = true) (hhigh : F.readsBack rank high = true)
    (hle : low.value ≤ d.value) (hge : d.value ≤ high.value) : F.readsBack rank d = true := by
  rw [readsBack_iff hwide] at hlow hhigh ⊢
  apply Nat.le_antisymm
  · exact (Decimal.nearestRank_mono hge).trans hhigh.le
  · exact hlow.ge.trans (Decimal.nearestRank_mono hle)

/-- A decimal reads back when its distance to the magnitude is small in proportion to it. -/
theorem readsBack_of_near (hwide : F.Wide) {d : Decimal}
    (habove : 4 * F.binadeSize * d.value < (4 * F.binadeSize + 1) * (F.units rank / F.one))
    (hbelow : 4 * F.binadeSize * (F.units rank / F.one) <
      4 * F.binadeSize * d.value + F.units rank / F.one) :
    F.readsBack rank d = true := by
  have hden : (0 : ℚ) < d.den := Nat.cast_pos.2 d.den_pos
  have hone : (0 : ℚ) < F.one := Nat.cast_pos.2 F.one_pos
  have hnum : (d.num F : ℚ) = d.value * (F.one * d.den) := by
    rw [← mul_assoc, ← Decimal.num_div_den, div_mul_cancel₀ _ hden.ne']
  have hunits : (F.units rank * d.den : ℚ) = F.units rank / F.one * (F.one * d.den) := by
    rw [← mul_assoc, div_mul_cancel₀ _ hone.ne']
  have hscale : (0 : ℚ) < F.one * d.den := mul_pos hone hden
  rw [readsBack_iff hwide]
  apply Nat.le_antisymm
  · apply F.nearestRank_le_of_lt d.den_pos
    have hscaled := mul_lt_mul_of_pos_right habove hscale
    rw [mul_assoc, mul_assoc _ _ (F.one * d.den : ℚ), ← hnum, ← hunits] at hscaled
    exact_mod_cast hscaled
  · apply F.le_nearestRank_of_lt d.den_pos
    have hscaled := mul_lt_mul_of_pos_right hbelow hscale
    rw [add_mul, mul_assoc, mul_assoc _ d.value, ← hnum, ← hunits] at hscaled
    exact_mod_cast hscaled

/-! ## The first digit -/

/-- A magnitude below one is no power of ten, because no power of two is a multiple of five. -/
theorem units_div_one_ne_ten_zpow {rank : Nat} (h : F.units rank < F.one) (exponent : ℤ) :
    (F.units rank / F.one : ℚ) ≠ 10 ^ exponent := by
  intro hpower
  have hone : (0 : ℚ) < F.one := Nat.cast_pos.2 F.one_pos
  have hsmall : (10 : ℚ) ^ exponent < 1 := by
    rw [← hpower, div_lt_one hone]
    exact Nat.cast_lt.2 h
  have hneg : exponent < 0 := by
    by_contra hnonneg
    exact hsmall.not_ge (one_le_zpow₀ (by norm_num) (not_lt.1 hnonneg))
  obtain ⟨places, rfl⟩ := Int.eq_negSucc_of_lt_zero hneg
  rw [zpow_negSucc, div_eq_iff hone.ne', inv_mul_eq_div, eq_div_iff (by positivity)] at hpower
  have hproduct : F.units rank * 10 ^ (places + 1) = 2 ^ F.scale := by exact_mod_cast hpower
  have hfive : 5 ∣ 2 ^ F.scale := by
    rw [← hproduct]
    exact Dvd.dvd.mul_left (dvd_pow (by decide) (Nat.succ_ne_zero places)) _
  exact absurd (Nat.prime_five.dvd_of_dvd_pow hfive) (by decide)

/-- The places of a magnitude say where its first digit is. -/
theorem decimalPlaces_spec {rank : Nat} (hne : F.units rank ≠ 0) :
    (10 : ℚ) ^ (F.decimalPlaces rank - 1) ≤ F.units rank / F.one ∧
      (F.units rank / F.one : ℚ) < 10 ^ F.decimalPlaces rank := by
  have hone : (0 : ℚ) < F.one := Nat.cast_pos.2 F.one_pos
  have hpos : (0 : ℚ) < F.units rank / F.one :=
    div_pos (Nat.cast_pos.2 (Nat.pos_of_ne_zero hne)) hone
  rcases Nat.lt_or_ge (F.units rank) F.one with hsmall | hlarge
  · have hplaces : F.decimalPlaces rank = Int.clog 10 (F.units rank / F.one : ℚ) := by
      have hle : (F.units rank / F.one : ℚ) ≤ 1 := (div_le_one hone).2 (Nat.cast_le.2 hsmall.le)
      rw [decimalPlaces, if_neg (Nat.not_le.2 hsmall), Int.clog_of_right_le_one 10 hle, inv_div,
        Nat.floor_div_eq_div, Decimal.digitCount_eq]
      omega
    have hlower := Int.zpow_pred_clog_lt_self (b := 10) (by decide) hpos
    have hupper := Int.self_le_zpow_clog (b := 10) (by decide) (F.units rank / F.one : ℚ)
    rw [← hplaces] at hlower hupper
    exact ⟨hlower.le, lt_of_le_of_ne hupper (units_div_one_ne_ten_zpow hsmall _)⟩
  · have hplaces : F.decimalPlaces rank = Int.log 10 (F.units rank / F.one : ℚ) + 1 := by
      have hge : (1 : ℚ) ≤ F.units rank / F.one := (one_le_div hone).2 (Nat.cast_le.2 hlarge)
      rw [decimalPlaces, if_pos hlarge, Int.log_of_one_le_right 10 hge, Nat.floor_div_eq_div,
        Decimal.digitCount_eq]
      rfl
    have hlower := Int.zpow_log_le_self (b := 10) (by decide) hpos
    have hupper := Int.lt_zpow_succ_log_self (b := 10) (by decide) (F.units rank / F.one : ℚ)
    rw [← hplaces] at hupper
    rw [hplaces, add_sub_cancel_right]
    exact ⟨hlower, hplaces ▸ hupper⟩

/-! ## Neighbours -/

/-- The neighbours of a magnitude enclose it. -/
theorem exists_neighbours (F : Format) (rank : Nat) (exponent : ℤ) : ∃ count : Nat,
    (∀ d, d ∈ F.neighbours rank exponent ↔ d = ⟨count, exponent⟩ ∨ d = ⟨count + 1, exponent⟩) ∧
      (count * 10 ^ exponent : ℚ) ≤ F.units rank / F.one ∧
        (F.units rank / F.one : ℚ) < (count + 1) * 10 ^ exponent := by
  have hone : (0 : ℚ) < F.one := Nat.cast_pos.2 F.one_pos
  have hgrid : (0 : ℚ) < 10 ^ exponent := zpow_pos (by norm_num) exponent
  have hquotient : ((F.units rank * Nat.pow 10 (-exponent).toNat : Nat) : ℚ) /
      (F.one * Nat.pow 10 exponent.toNat : Nat) = F.units rank / F.one / 10 ^ exponent := by
    have hpower := Decimal.ten_pow_toNat exponent
    have hplaces : (0 : ℚ) < 10 ^ (-exponent).toNat := by positivity
    simp only [Nat.pow_eq]
    push_cast
    rw [hpower]
    field_simp
  refine ⟨F.units rank * Nat.pow 10 (-exponent).toNat / (F.one * Nat.pow 10 exponent.toNat),
    ?_, ?_, ?_⟩
  · intro d
    unfold neighbours
    dsimp only
    split_ifs
    · simp
    · simp [or_comm]
  · rw [← Nat.floor_div_eq_div (K := ℚ), hquotient, ← le_div_iff₀ hgrid]
    exact Nat.floor_le (by positivity)
  · rw [← Nat.floor_div_eq_div (K := ℚ), hquotient, ← div_lt_iff₀ hgrid]
    exact Nat.lt_floor_add_one _

/-- When a multiple of a power of ten reads back, then so does a neighbour of the magnitude. -/
theorem exists_neighbour_of_readsBack (hwide : F.Wide) {count : Nat} {exponent : ℤ}
    (h : F.readsBack rank ⟨count, exponent⟩ = true) :
    ∃ d ∈ F.neighbours rank exponent, F.readsBack rank d = true := by
  have hgrid : (0 : ℚ) < 10 ^ exponent := zpow_pos (by norm_num) exponent
  have hexact := F.value_exactDecimal rank
  have hself := readsBack_exactDecimal hwide rank
  obtain ⟨floor, hmem, hlower, hupper⟩ := F.exists_neighbours rank exponent
  rcases Nat.lt_or_ge floor count with habove | hbelow
  · refine ⟨⟨floor + 1, exponent⟩, (hmem _).2 (.inr rfl), ?_⟩
    apply readsBack_of_between hwide hself h
    · rw [hexact, Decimal.value, Nat.cast_add_one]
      exact hupper.le
    · exact mul_le_mul_of_nonneg_right (Nat.cast_le.2 habove) hgrid.le
  · refine ⟨⟨floor, exponent⟩, (hmem _).2 (.inl rfl), ?_⟩
    apply readsBack_of_between hwide h hself
    · exact mul_le_mul_of_nonneg_right (Nat.cast_le.2 hbelow) hgrid.le
    · rw [hexact]
      exact hlower

/-- The neighbours of a count of digits have no more digits, or are the next power of ten. -/
theorem coefficient_le_of_mem_neighbours {rank : Nat} (hne : F.units rank ≠ 0) {count : Nat}
    {d : Decimal} (h : d ∈ F.neighbours rank (F.decimalPlaces rank - count)) :
    d.coefficient ≤ 10 ^ count := by
  obtain ⟨floor, hmem, hlower, -⟩ := F.exists_neighbours rank (F.decimalPlaces rank - count)
  have hgrid : (0 : ℚ) < 10 ^ (F.decimalPlaces rank - count) := zpow_pos (by norm_num) _
  have hfloor : floor < 10 ^ count := by
    have hless := hlower.trans_lt (decimalPlaces_spec hne).2
    have hsplit : (10 : ℚ) ^ F.decimalPlaces rank =
        10 ^ count * 10 ^ (F.decimalPlaces rank - count) := by
      rw [← zpow_natCast, ← zpow_add₀ (by norm_num), add_sub_cancel]
    rw [hsplit, mul_lt_mul_iff_left₀ hgrid] at hless
    exact_mod_cast hless
  rcases (hmem d).1 h with rfl | rfl
  · exact hfloor.le
  · exact hfloor

/-! ## Counts of digits -/

/-- When a decimal reads back, then so does one whose last digit has the place that the count of
digits gives it behind the first digit of the magnitude. -/
theorem exists_readsBack_of_digitCount (hwide : F.Wide) (hne : F.units rank ≠ 0) {d : Decimal}
    (h : F.readsBack rank d = true) : ∃ count : Nat,
      F.readsBack rank ⟨count, F.decimalPlaces rank - Decimal.digitCount d.coefficient⟩ = true := by
  have hdigits := Decimal.digitCount_pos d.coefficient
  have hself := readsBack_exactDecimal hwide rank
  rcases lt_or_ge d.value (10 ^ (F.decimalPlaces rank - 1)) with hshort | hlong
  · -- the power of ten at the first digit of the magnitude is then between the two
    refine ⟨10 ^ (Decimal.digitCount d.coefficient - 1), ?_⟩
    have hpower : (⟨10 ^ (Decimal.digitCount d.coefficient - 1),
        F.decimalPlaces rank - Decimal.digitCount d.coefficient⟩ : Decimal).value =
          10 ^ (F.decimalPlaces rank - 1) := by
      rw [Decimal.value, Nat.cast_pow, Nat.cast_ofNat, ← zpow_natCast, ← zpow_add₀ (by norm_num)]
      congr 1
      dsimp only
      omega
    apply readsBack_of_between hwide h hself
    · rw [hpower]
      exact hshort.le
    · rw [hpower, F.value_exactDecimal]
      exact (decimalPlaces_spec hne).1
  · -- the last digit of the decimal is then not behind the count of digits
    have hgrid : F.decimalPlaces rank - Decimal.digitCount d.coefficient ≤ d.exponent := by
      have hcoefficient : d.value < 10 ^ (Decimal.digitCount d.coefficient + d.exponent) := by
        rw [zpow_add₀ (by norm_num), zpow_natCast]
        have hlt := Decimal.lt_pow_digitCount d.coefficient
        exact mul_lt_mul_of_pos_right (by exact_mod_cast hlt) (zpow_pos (by norm_num) _)
      have hplaces := (zpow_lt_zpow_iff_right₀ (by norm_num)).1 (hlong.trans_lt hcoefficient)
      omega
    obtain ⟨zeros, hzeros⟩ := Int.le.dest hgrid
    refine ⟨d.coefficient * 10 ^ zeros, ?_⟩
    have hvalue : (⟨d.coefficient * 10 ^ zeros,
        F.decimalPlaces rank - Decimal.digitCount d.coefficient⟩ : Decimal).value = d.value := by
      unfold Decimal.value
      dsimp only
      rw [← hzeros, zpow_add₀ (by norm_num), zpow_natCast]
      push_cast
      ring
    exact readsBack_of_between hwide h h hvalue.ge hvalue.le

/-- With seventeen digits one neighbour reads back. -/
theorem exists_neighbour_seventeen (hwide : F.Wide) (hprecision : 2 * F.binadeSize < 10 ^ 16)
    (hne : F.units rank ≠ 0) :
    ∃ d ∈ F.neighbours rank (F.decimalPlaces rank - 17), F.readsBack rank d = true := by
  have hbinade : (2 * F.binadeSize : ℚ) < 10 ^ 16 := by exact_mod_cast hprecision
  obtain ⟨floor, hmem, hlower, hupper⟩ := F.exists_neighbours rank (F.decimalPlaces rank - 17)
  have hgrid : (0 : ℚ) < 10 ^ (F.decimalPlaces rank - 17) := zpow_pos (by norm_num) _
  have hplaces : (10 : ℚ) ^ 16 * 10 ^ (F.decimalPlaces rank - 17) ≤ F.units rank / F.one := by
    apply le_trans (le_of_eq _) (decimalPlaces_spec hne).1
    rw [← zpow_natCast, ← zpow_add₀ (by norm_num)]
    congr 1
    ring
  have hstep : 2 * F.binadeSize * (10 : ℚ) ^ (F.decimalPlaces rank - 17) < F.units rank / F.one :=
    (mul_lt_mul_of_pos_right hbinade hgrid).trans_le hplaces
  have hbinadeSize : (0 : ℚ) ≤ 2 * F.binadeSize := by positivity
  rcases le_total (2 * (F.units rank / F.one : ℚ))
    ((2 * floor + 1) * 10 ^ (F.decimalPlaces rank - 17)) with hfirst | hsecond
  · refine ⟨⟨floor, F.decimalPlaces rank - 17⟩, (hmem _).2 (.inl rfl), ?_⟩
    have hhalf := mul_le_mul_of_nonneg_left hfirst hbinadeSize
    have hmiss := mul_le_mul_of_nonneg_left hlower hbinadeSize
    apply readsBack_of_near hwide
    · rw [Decimal.value]
      linarith
    · rw [Decimal.value]
      linarith
  · refine ⟨⟨floor + 1, F.decimalPlaces rank - 17⟩, (hmem _).2 (.inr rfl), ?_⟩
    have hhalf := mul_le_mul_of_nonneg_left hsecond hbinadeSize
    have hmiss := mul_le_mul_of_nonneg_left hupper.le hbinadeSize
    apply readsBack_of_near hwide
    · rw [Decimal.value, Nat.cast_add_one]
      linarith
    · rw [Decimal.value, Nat.cast_add_one]
      linarith

/-! ## The search -/

/-- When a neighbour of some count of digits reads back, the search ends at this count or before. -/
theorem exists_shortestFrom {digits fuel count : Nat} (hdigits : digits ≤ count)
    (hfuel : count < digits + fuel)
    (h : ∃ d ∈ F.neighbours rank (F.decimalPlaces rank - count), F.readsBack rank d = true) :
    ∃ found, digits ≤ found ∧ found ≤ count ∧
      F.shortestFrom rank digits fuel ∈ F.neighbours rank (F.decimalPlaces rank - found) := by
  induction fuel generalizing digits with
  | zero => omega
  | succ fuel ih =>
    rw [shortestFrom]
    split
    · next found hfound =>
      exact ⟨digits, Nat.le_refl _, hdigits, List.mem_of_find?_eq_some hfound⟩
    · next hnone =>
      rcases hdigits.eq_or_lt with rfl | hless
      · obtain ⟨d, hmem, hback⟩ := h
        exact absurd hback (List.find?_eq_none.1 hnone d hmem)
      · obtain ⟨found, hfrom, hto, hmem⟩ := ih hless (by omega)
        exact ⟨found, by omega, hto, hmem⟩

/-- No decimal that reads back has fewer digits than the chosen one. -/
theorem digitCount_shortest_le (hwide : F.Wide) (hprecision : 2 * F.binadeSize < 10 ^ 16)
    {d : Decimal} (h : F.readsBack rank d = true) :
    Decimal.digitCount (F.shortest rank).coefficient ≤ Decimal.digitCount d.coefficient := by
  have hdigits := Decimal.digitCount_pos d.coefficient
  unfold shortest
  split
  · exact (Decimal.digitCount_le Nat.one_pos (by decide)).trans hdigits
  · next hne =>
    have hsearch : ∃ count ≤ Decimal.digitCount d.coefficient, 1 ≤ count ∧ count < 1 + 17 ∧
        ∃ d ∈ F.neighbours rank (F.decimalPlaces rank - count), F.readsBack rank d = true := by
      rcases Nat.lt_or_ge 17 (Decimal.digitCount d.coefficient) with hmany | hfew
      · exact ⟨17, hmany.le, by decide, by decide, exists_neighbour_seventeen hwide hprecision hne⟩
      · obtain ⟨count, hcount⟩ := exists_readsBack_of_digitCount hwide hne h
        exact ⟨_, Nat.le_refl _, hdigits, by omega, exists_neighbour_of_readsBack hwide hcount⟩
    obtain ⟨count, hcount, hpos, hlast, hneighbour⟩ := hsearch
    obtain ⟨found, hfrom, hto, hmem⟩ := exists_shortestFrom hpos hlast hneighbour
    exact (Decimal.digitCount_trim_le hfrom (coefficient_le_of_mem_neighbours hne hmem)).trans
      (hto.trans hcount)

/-- The chosen decimal has the fewest digits among those that are read as the magnitude, with either
sign. -/
theorem isLeast_digitCount_shortest (hwide : F.Wide) (hprecision : 2 * F.binadeSize < 10 ^ 16)
    (negative : Bool) (rank : Fin F.count) :
    IsLeast {count | ∃ d : Decimal, d.toBinary F negative = .finite negative rank ∧
      Decimal.digitCount d.coefficient = count}
      (Decimal.digitCount (F.shortest rank).coefficient) := by
  refine ⟨⟨_, toBinary_shortest hwide negative rank, rfl⟩, ?_⟩
  rintro count ⟨d, hread, rfl⟩
  apply digitCount_shortest_le hwide hprecision
  rw [readsBack_iff hwide]
  exact (Decimal.toBinary_eq_finite_iff hwide negative).1 hread

/-- Seventeen digits are just enough for sixty-four bits. -/
example : 2 * Format.binary64.binadeSize < 10 ^ 16 ∧ 10 ^ 16 < 4 * Format.binary64.binadeSize := by
  decide

/-- The chosen decimal has no trailing zeros, unless it is zero. -/
theorem coefficient_shortest_mod (hwide : F.Wide) (rank : Fin F.count) :
    (F.shortest rank).coefficient = 0 ∨ (F.shortest rank).coefficient % 10 ≠ 0 := by
  unfold shortest
  split
  · exact .inl rfl
  · next hne =>
    refine .inr (Decimal.coefficient_trim_mod ?_)
    intro hzero
    have hnum : (F.shortestFrom rank 1 17).num F = 0 := by
      rw [Decimal.num, hzero, Nat.zero_mul, Nat.zero_mul]
    have hrank := (readsBack_iff hwide).1 (readsBack_shortestFrom hwide rank 1 17)
    rw [hnum, F.nearestRank_eq_zero (Decimal.den_pos _)] at hrank
    apply hne
    rw [← hrank]
    simp [units]

end Format

end TypedVars
