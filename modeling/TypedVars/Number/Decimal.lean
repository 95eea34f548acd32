import TypedVars.Number.Binary
import TypedVars.Number.Digits

/-!
# Decimals

A decimal is a natural coefficient times a power of ten. Its nearest floating-point number is found
exactly; a decimal whose exponent alone settles the answer is not expanded.
-/

set_option autoImplicit false

namespace TypedVars

/-- The number `coefficient * 10 ^ exponent`. -/
structure Decimal where
  /-- The digits, read as one number. -/
  coefficient : Nat
  /-- The power of ten that the last digit counts. -/
  exponent : Int
deriving DecidableEq, Repr

namespace Decimal

/-- The number of digits of a natural number; zero has one. -/
def digitCount (n : Nat) : Nat := (Digits.ofNat n).length

/-- The floating-point number nearest to a decimal. A decimal of at least `10 ^ binades` is beyond
every finite magnitude, and one below `10 ^ (-scale)` rounds to zero. -/
def toBinary (F : Format) (negative : Bool) (d : Decimal) : Binary F :=
  if d.coefficient = 0 then Binary.round negative 0 1
  else if (F.binades : Int) < d.exponent + digitCount d.coefficient then .infinity negative
  else if d.exponent + digitCount d.coefficient < -(F.scale : Int) then Binary.round negative 0 1
  else
    match d.exponent with
    | .ofNat e => Binary.round negative (d.coefficient * Nat.pow 10 e * F.one) 1
    | .negSucc e => Binary.round negative (d.coefficient * F.one) (Nat.pow 10 (e + 1))

/-- Moves the trailing zeros of a coefficient into the exponent, at most as many as the fuel. -/
def trimFrom : Nat → Decimal → Decimal
  | 0, d => d
  | fuel + 1, d =>
    if d.coefficient ≠ 0 ∧ d.coefficient % 10 = 0 then
      trimFrom fuel ⟨d.coefficient / 10, d.exponent + 1⟩
    else d

/-- The decimal of equal value whose coefficient has no trailing zeros. -/
def trim (d : Decimal) : Decimal := trimFrom (digitCount d.coefficient) d

end Decimal

end TypedVars
