import TypedVars.Number.Integer
import TypedVars.Number.Shortest

/-!
# Layouts of numbers

A layout lays the shortest digits of a number out as text. It decides for which exponents a power of
ten is written and whether a whole number keeps a point.
-/

set_option autoImplicit false

namespace TypedVars

/-- How the digits of a number are laid out. -/
structure Layout where
  /-- The exponents, of the first digit, that are written without a power of ten; all of them when
  there are no limits. Zero counts as exponent zero. -/
  positional : Option (Int × Int)
  /-- Whether a whole number written without a power of ten ends in `.0`. -/
  keepsPoint : Bool
deriving DecidableEq, Repr

namespace Layout

/-- Stored numbers keep a point, and take a power of ten from `1e16` on and below `1e-4`. -/
def stored : Layout := ⟨some (-4, 15), true⟩

/-- Printed numbers never take a power of ten, and whole ones have no point. -/
def printed : Layout := ⟨none, false⟩

/-- Numbers in messages never take a power of ten, and keep a point. -/
def reported : Layout := ⟨none, true⟩

/-- Digits written out at their places: `digits * 10 ^ exponent` without a power of ten. -/
def spread (keepsPoint : Bool) (digits : Text) (exponent : Int) : Text :=
  match exponent with
  | .ofNat zeros =>
    digits ++ List.replicate zeros '0' ++ (if keepsPoint then ['.', '0'] else [])
  | .negSucc e =>
    if e + 1 < digits.length then
      digits.take (digits.length - (e + 1)) ++ '.' :: digits.drop (digits.length - (e + 1))
    else '0' :: '.' :: (List.replicate (e + 1 - digits.length) '0' ++ digits)

/-- Digits with a point after the first and a power of ten; `exponent` counts the last digit. -/
def scientific (digits : Text) (exponent : Int) : Text :=
  let power := 'e' :: Digits.ofInt (exponent + digits.length - 1)
  match digits with
  | [] => power
  | [digit] => digit :: power
  | digit :: others => digit :: '.' :: others ++ power

/-- Lays out a decimal. -/
def decimalText (layout : Layout) (d : Decimal) : Text :=
  let digits := Digits.ofNat d.coefficient
  let leading := d.exponent + digits.length - 1
  let plain :=
    match layout.positional with
    | none => true
    | some (low, high) => decide (low ≤ leading ∧ leading ≤ high)
  if plain then spread layout.keepsPoint digits d.exponent else scientific digits d.exponent

/-- Lays out a number by its shortest digits. -/
def text {F : Format} (layout : Layout) : Binary F → Text
  | .nan => ['N', 'a', 'N']
  | .infinity negative => (if negative then ['-'] else []) ++ ['i', 'n', 'f']
  | .finite negative rank =>
    (if negative then ['-'] else []) ++ layout.decimalText (F.shortest rank)

end Layout

end TypedVars
