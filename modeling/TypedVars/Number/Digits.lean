import TypedVars.Text.Piece

/-!
# Decimal digits

Natural numbers are written in decimal without leading zeros and read from digits of any number.
Reading a written number gives it back.
-/

set_option autoImplicit false

namespace TypedVars.Digits

/-- The character of a digit below ten. -/
def ofDigit (d : Nat) : Char := Char.ofNat (48 + d)

/-- The value of a decimal digit. -/
def toDigit (c : Char) : Nat := c.toNat - 48

/-- The digits of a number, without leading zeros. -/
def ofNat (n : Nat) : Text :=
  if n < 10 then [ofDigit n] else ofNat (n / 10) ++ [ofDigit (n % 10)]

/-- The number that a text of digits denotes; the empty text denotes zero. -/
def toNat (digits : Text) : Nat :=
  digits.foldl (fun value c => 10 * value + toDigit c) 0

/-- A digit read back is itself. -/
theorem toDigit_ofDigit {d : Nat} (h : d < 10) : toDigit (ofDigit d) = d := by
  have table : ∀ d : Fin 10, toDigit (ofDigit d) = d := by decide
  exact table ⟨d, h⟩

/-- Appending a digit shifts the number and adds the digit. -/
theorem toNat_append_singleton (digits : Text) (c : Char) :
    toNat (digits ++ [c]) = 10 * toNat digits + toDigit c := by
  simp [toNat, List.foldl_append]

/-- Reading a written number gives it back. -/
theorem toNat_ofNat (n : Nat) : toNat (ofNat n) = n := by
  induction n using Nat.strongRecOn with
  | _ n ih =>
    rw [ofNat]
    split
    · next h => simp [toNat, toDigit_ofDigit h]
    · next h =>
      rw [toNat_append_singleton, ih (n / 10) (by omega), toDigit_ofDigit (Nat.mod_lt _ (by omega))]
      omega

end TypedVars.Digits
