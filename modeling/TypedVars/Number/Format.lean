/-!
# Binary floating-point formats

The finite magnitudes of a format are numbered from zero upwards by their rank, without gaps. The
first binades hold the multiples of the smallest magnitude, and each later binade doubles the
distance between neighbours. Every magnitude is a whole number of units, the unit being the smallest
magnitude that is not zero, so all of the arithmetic is arithmetic on natural numbers.
-/

set_option autoImplicit false

namespace TypedVars

/-- A binary floating-point format. -/
structure Format where
  /-- A binade holds `2 ^ fraction` magnitudes. -/
  fraction : Nat
  /-- The number of blocks of `2 ^ fraction` finite magnitudes. -/
  binades : Nat
  /-- The smallest magnitude above zero is `2 ^ (-scale)`. -/
  scale : Nat
deriving DecidableEq, Repr

namespace Format

/-- The format of sixty-four bits. -/
def binary64 : Format := ⟨52, 2047, 1074⟩

/-- The format of thirty-two bits. -/
def binary32 : Format := ⟨23, 255, 149⟩

variable (F : Format)

/-- The number of magnitudes of a binade. -/
def binadeSize : Nat := Nat.pow 2 F.fraction

/-- The number of finite magnitudes. -/
def count : Nat := F.binades * F.binadeSize

/-- The magnitude of a rank, counted in units. -/
def units (rank : Nat) : Nat :=
  let binade := rank / F.binadeSize
  let place := rank % F.binadeSize
  if binade = 0 then place else (F.binadeSize + place) * Nat.pow 2 (binade - 1)

/-- The number of units in one. -/
def one : Nat := Nat.pow 2 F.scale

/-- The number of encodings with the same sign: those of the finite magnitudes and one block
more. -/
def signSize : Nat := (F.binades + 1) * F.binadeSize

end Format

/-- The natural number nearest to a quotient; of two equally near ones, the even one. -/
def divNearestEven (num den : Nat) : Nat :=
  let floor := num / den
  let twice := 2 * (num % den)
  if twice < den then floor
  else if den < twice then floor + 1
  else if floor % 2 = 0 then floor
  else floor + 1

/-- The rank of the magnitude nearest to `num / den` units, ties to even. The quotient's binade
tells how many units lie between neighbours. The result may exceed the finite ranks. -/
def Format.nearestRank (F : Format) (num den : Nat) : Nat :=
  let coarse := (num / den).log2 - F.fraction
  coarse * F.binadeSize + divNearestEven num (den * Nat.pow 2 coarse)

end TypedVars
