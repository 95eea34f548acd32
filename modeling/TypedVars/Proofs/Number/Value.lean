import TypedVars.Proofs.Number.Quotient

/-!
# The values of numbers

A finite number is a rational number, and its integers are those of this rational number. The same
rational number is read off an encoding of sixty-four bits by its three fields.
-/

set_option autoImplicit false

namespace TypedVars

/-- The integer next to a rational number towards zero. -/
def towardZero (q : ℚ) : ℤ := if q < 0 then ⌈q⌉ else ⌊q⌋

/-- Truncation treats both signs alike. -/
theorem towardZero_neg (q : ℚ) : towardZero (-q) = -towardZero q := by
  unfold towardZero
  rcases lt_trichotomy q 0 with hneg | rfl | hpos
  · rw [if_neg (by linarith), if_pos hneg, Int.floor_neg]
  · simp
  · rw [if_pos (by linarith), if_neg (by linarith), Int.ceil_neg]

/-- Truncating a fraction of naturals is dividing them. -/
theorem towardZero_div (x y : Nat) : towardZero ((x : ℚ) / y) = (x / y : Nat) := by
  have hnonneg : ¬ (x : ℚ) / y < 0 := not_lt.2 (by positivity)
  unfold towardZero
  rw [if_neg hnonneg, Rat.floor_natCast_div_natCast, Int.natCast_div]

/-- Truncating a signed fraction is dividing its magnitudes. -/
theorem towardZero_signed (negative : Bool) (x y : Nat) :
    towardZero ((signed negative x : ℚ) / y) = signed negative (x / y) := by
  have hdiv := towardZero_div x y
  have hneg : towardZero (-((x : ℚ) / y)) = -(x / y : Nat) := by
    rw [towardZero_neg, hdiv]
  cases negative <;> simp [signed, neg_div, hdiv, hneg]

namespace Binary

variable {F : Format}

/-- The rational number that a finite number is. -/
def value? : Binary F → Option ℚ
  | .finite negative rank => some ((signedUnits negative rank : ℚ) / F.one)
  | _ => none

/-- A number is rounded to the integer nearest to its value. -/
theorem roundToInt?_eq (number : Binary F) :
    number.roundToInt? = number.value?.map nearestAway := by
  cases number with
  | nan => rfl
  | infinity negative => rfl
  | finite negative rank =>
    have hrounded := nearestAway_signed negative false (F.units rank) F.one F.one_pos
    rw [Bool.bne_false] at hrounded
    exact congrArg some hrounded.symm

/-- A number is truncated to the integer that its value is cut to. -/
theorem truncateToInt?_eq (number : Binary F) :
    number.truncateToInt? = number.value?.map towardZero := by
  cases number with
  | nan => rfl
  | infinity negative => rfl
  | finite negative rank => exact congrArg some (towardZero_signed negative _ _).symm

end Binary

/-! ## Encodings -/

/-- A magnitude by its binade and its place there. -/
theorem Format.units_div_one (F : Format) (rank : Nat) :
    (F.units rank : ℚ) / F.one =
      if rank / F.binadeSize = 0 then ((rank % F.binadeSize : Nat) : ℚ) * 2 ^ (-(F.scale : ℤ))
      else (F.binadeSize + (rank % F.binadeSize : Nat) : ℚ) *
        2 ^ ((rank / F.binadeSize : Nat) - 1 - F.scale : ℤ) := by
  have hone : (F.one : ℚ)⁻¹ = 2 ^ (-(F.scale : ℤ)) := by
    have hcast : (F.one : ℚ) = 2 ^ F.scale := Nat.cast_pow 2 F.scale
    rw [hcast, zpow_neg, zpow_natCast]
  rw [div_eq_mul_inv, hone]
  unfold units
  dsimp only
  split_ifs with hfirst
  · rfl
  · obtain ⟨binade, hbinade⟩ := Nat.exists_eq_add_one.2 (Nat.pos_of_ne_zero hfirst)
    have hexponent : ((binade + 1 : Nat) - 1 - F.scale : ℤ) = binade + -(F.scale : ℤ) := by
      push_cast
      ring
    have hpower : (Nat.pow 2 (binade + 1 - 1) : ℚ) = 2 ^ binade := Nat.cast_pow 2 binade
    rw [hbinade, hexponent, zpow_add₀ two_ne_zero, zpow_natCast, Nat.cast_mul, hpower, Nat.cast_add,
      mul_assoc]

/-- The rational number that sixty-four bits encode: a sign, eleven bits of exponent and fifty-two
bits of fraction. The least exponent has no implicit bit, and the greatest encodes no number. -/
def encodedValue? (bits : Nat) : Option ℚ :=
  let sign : ℚ := if bits / 2 ^ 63 % 2 = 1 then -1 else 1
  let exponent : Nat := bits / 2 ^ 52 % 2 ^ 11
  let fraction : Nat := bits % 2 ^ 52
  if exponent = 2047 then none
  else if exponent = 0 then some (sign * (fraction * 2 ^ (-1074 : ℤ)))
  else some (sign * ((2 ^ 52 + fraction) * 2 ^ (exponent - 1075 : ℤ)))

/-- A signed fraction is the fraction of its magnitudes with the sign in front. -/
theorem signed_div (negative : Bool) (x y : Nat) :
    (signed negative x : ℚ) / y = (if negative then -1 else 1) * (x / y) := by
  cases negative <;> simp [signed, neg_div]

/-- The value of a double is given by the two fields of its bits. -/
theorem units_div_one_binary64 (rank : Nat) :
    (Format.binary64.units rank : ℚ) / Format.binary64.one =
      if rank / 2 ^ 52 = 0 then ((rank % 2 ^ 52 : Nat) : ℚ) * 2 ^ (-1074 : ℤ)
      else (2 ^ 52 + (rank % 2 ^ 52 : Nat) : ℚ) * 2 ^ ((rank / 2 ^ 52 : Nat) - 1075 : ℤ) := by
  have hbinadeSize : Format.binary64.binadeSize = 2 ^ 52 := rfl
  have hscale : Format.binary64.scale = 1074 := rfl
  have himplicit : ((2 ^ 52 : Nat) : ℚ) = 2 ^ 52 := Nat.cast_pow 2 52
  have hexponent :
      ((rank / 2 ^ 52 : Nat) - 1 - (1074 : Nat) : ℤ) = (rank / 2 ^ 52 : Nat) - 1075 := by
    omega
  rw [Format.units_div_one, hbinadeSize, hscale, hexponent, himplicit]
  rfl

/-- An encoding of a finite number stands for its rational number, and any other one for none. -/
theorem Binary.value?_ofBits (bits : Nat) :
    (ofBits bits : Binary64).value? = encodedValue? bits := by
  have hsize : Format.binary64.signSize = 2 ^ 63 := rfl
  have hcount : Format.binary64.count = 2047 * 2 ^ 52 := rfl
  have hexponent : bits % 2 ^ 63 / 2 ^ 52 = bits / 2 ^ 52 % 2 ^ 11 := by omega
  have hfraction : bits % 2 ^ 63 % 2 ^ 52 = bits % 2 ^ 52 := by omega
  unfold ofBits encodedValue?
  dsimp only
  rw [hsize]
  by_cases hlast : bits / 2 ^ 52 % 2 ^ 11 = 2047
  · have hge : ¬ bits % 2 ^ 63 < Format.binary64.count := by omega
    rw [dif_neg hge, if_pos hlast]
    split_ifs <;> rfl
  · have hlt : bits % 2 ^ 63 < Format.binary64.count := by omega
    have hvalue (negative : Bool) (rank : Fin Format.binary64.count) :
        (finite negative rank).value? =
          some ((if negative then -1 else 1) *
            ((Format.binary64.units rank : ℚ) / Format.binary64.one)) :=
      congrArg some (signed_div negative _ _)
    rw [dif_pos hlt, if_neg hlast, hvalue, units_div_one_binary64, hexponent, hfraction]
    simp only [beq_iff_eq, mul_ite]
    split_ifs <;> rfl

end TypedVars
