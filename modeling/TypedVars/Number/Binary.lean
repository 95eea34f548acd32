import TypedVars.Number.Format

/-!
# Floating-point numbers

A number of a format is a signed finite magnitude, a signed infinity or no number at all. The four
operations, the change of format and the reading of decimals are each an exact value on units that
is rounded once.
-/

set_option autoImplicit false

namespace TypedVars

/-- A floating-point number of a format. -/
inductive Binary (F : Format) where
  /-- The result of an operation that has none. -/
  | nan
  /-- A value beyond the finite magnitudes. -/
  | infinity (negative : Bool)
  /-- A signed magnitude, given by its rank; zero has both signs. -/
  | finite (negative : Bool) (rank : Fin F.count)
deriving DecidableEq

/-- A number of sixty-four bits. -/
abbrev Binary64 := Binary Format.binary64

namespace Binary

variable {F : Format}

/-- The signed magnitude nearest to `num / den` units; infinity beyond the finite ranks. -/
def round (negative : Bool) (num den : Nat) : Binary F :=
  if h : F.nearestRank num den < F.count then .finite negative ⟨F.nearestRank num den, h⟩
  else .infinity negative

/-- The number with a given encoding: a sign above the rank, infinity after the last rank, and no
number above that. -/
def ofBits (bits : Nat) : Binary F :=
  let negative := bits / F.signSize % 2 == 1
  let magnitude := bits % F.signSize
  if h : magnitude < F.count then .finite negative ⟨magnitude, h⟩
  else if magnitude = F.count then .infinity negative
  else .nan

/-- The encoding of a number; the one that is no number has its first fraction bit set. -/
def toBits : Binary F → Nat
  | .nan => F.count + Nat.pow 2 (F.fraction - 1)
  | .infinity negative => (if negative then F.signSize else 0) + F.count
  | .finite negative rank => (if negative then F.signSize else 0) + rank

/-- The signed number of units of a signed magnitude. -/
def signedUnits (negative : Bool) (rank : Fin F.count) : Int :=
  if negative then -(F.units rank : Int) else F.units rank

/-- The number with the opposite sign. -/
def neg : Binary F → Binary F
  | .nan => .nan
  | .infinity negative => .infinity !negative
  | .finite negative rank => .finite (!negative) rank

/-- The sum. An exact sum of zero is negative only when both terms are. -/
def add : Binary F → Binary F → Binary F
  | .nan, _ => .nan
  | _, .nan => .nan
  | .infinity left, .infinity right => if left = right then .infinity left else .nan
  | .infinity left, _ => .infinity left
  | _, .infinity right => .infinity right
  | .finite left leftRank, .finite right rightRank =>
    let sum := signedUnits left leftRank + signedUnits right rightRank
    if sum = 0 then round (left && right) 0 1 else round (decide (sum < 0)) sum.natAbs 1

/-- The difference is the sum with the opposite number. -/
def sub (left right : Binary F) : Binary F := add left right.neg

/-- The product. Infinity times zero is no number. -/
def mul : Binary F → Binary F → Binary F
  | .nan, _ => .nan
  | _, .nan => .nan
  | .infinity left, .infinity right => .infinity (left != right)
  | .infinity left, .finite right rank =>
    if F.units rank = 0 then .nan else .infinity (left != right)
  | .finite left rank, .infinity right =>
    if F.units rank = 0 then .nan else .infinity (left != right)
  | .finite left leftRank, .finite right rightRank =>
    round (left != right) (F.units leftRank * F.units rightRank) F.one

/-- The quotient. A quotient by zero is infinite, except that zero by zero is no number, as is
infinity by infinity. -/
def div : Binary F → Binary F → Binary F
  | .nan, _ => .nan
  | _, .nan => .nan
  | .infinity _, .infinity _ => .nan
  | .infinity left, .finite right _ => .infinity (left != right)
  | .finite left _, .infinity right => round (left != right) 0 1
  | .finite left leftRank, .finite right rightRank =>
    if F.units rightRank = 0 then
      if F.units leftRank = 0 then .nan else .infinity (left != right)
    else round (left != right) (F.units leftRank * F.one) (F.units rightRank)

/-- The nearest number of another format. -/
def convert (G : Format) : Binary F → Binary G
  | .nan => .nan
  | .infinity negative => .infinity negative
  | .finite negative rank => round negative (F.units rank * G.one) F.one

/-- The integer nearest to a finite number, halves away from zero. -/
def roundToInt? : Binary F → Option Int
  | .finite negative rank =>
    let nearest : Nat := (2 * F.units rank + F.one) / (2 * F.one)
    some (if negative then -(nearest : Int) else nearest)
  | _ => none

/-- The integer next to a finite number towards zero. -/
def truncateToInt? : Binary F → Option Int
  | .finite negative rank =>
    let floor : Nat := F.units rank / F.one
    some (if negative then -(floor : Int) else floor)
  | _ => none

end Binary

end TypedVars
