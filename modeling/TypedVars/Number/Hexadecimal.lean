import TypedVars.Text.Basic

/-!
# Hexadecimal digits

Numbers in base sixteen are written in lower case without leading zeros and read in either case.
-/

set_option autoImplicit false

namespace TypedVars.Hexadecimal

/-- The character of a digit below sixteen. -/
def ofDigit (d : Nat) : Char := Char.ofNat (if d < 10 then 48 + d else 87 + d)

/-- The digits of a number, without leading zeros. -/
def ofNat (n : Nat) : Text :=
  if n < 16 then [ofDigit n] else ofNat (n / 16) ++ [ofDigit (n % 16)]

/-- The value of a digit in either case. -/
def toDigit? (c : Char) : Option Nat :=
  if '0' ≤ c ∧ c ≤ '9' then some (c.toNat - 48)
  else if 'a' ≤ c ∧ c ≤ 'f' then some (c.toNat - 87)
  else if 'A' ≤ c ∧ c ≤ 'F' then some (c.toNat - 55)
  else none

/-- The number that digits denote. -/
def toNat? (digits : Text) : Option Nat :=
  digits.foldlM (fun value c => (toDigit? c).map (16 * value + ·)) 0

end TypedVars.Hexadecimal
