import TypedVars.Number.Digits

/-!
# Integers

Integer literals have sixty-four bits. They are written in decimal with a minus sign where it is
needed, and read with an optional sign and any number of leading zeros. A numeral outside the range
is no integer.
-/

set_option autoImplicit false

namespace TypedVars

namespace Digits

/-- The decimal text of an integer. -/
def ofInt (n : Int) : Text :=
  if n < 0 then '-' :: ofNat n.natAbs else ofNat n.natAbs

/-- Takes an optional sign off a text; the flag tells whether it was a minus. -/
def splitSign : Text → Bool × Text
  | '-' :: rest => (true, rest)
  | '+' :: rest => (false, rest)
  | text => (false, text)

/-- The integer of a text that is an optional sign and at least one digit, and nothing else. -/
def toInt? (text : Text) : Option Int :=
  let (negative, digits) := splitSign text
  if digits.isEmpty || !digits.all Text.isDigit then none
  else some (if negative then -(toNat digits : Int) else (toNat digits : Int))

end Digits

/-- Holds of the integers that sixty-four bits with a sign can hold. -/
def fitsInt64 (n : Int) : Bool := -9223372036854775808 ≤ n && n < 9223372036854775808

/-- The sixty-four bit integer of a numeral, if it is in range. -/
def int64OfText? (text : Text) : Option Int64 :=
  ((Digits.toInt? text).filter fitsInt64).map Int64.ofInt

end TypedVars
