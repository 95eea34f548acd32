import TypedVars.Number.Decimal

/-!
# Shortest decimals

A finite number is written by the fewest digits that read back to it. For each count of digits the
two neighbours of the number among the decimals of that many digits are tried, the nearer one first.
-/

set_option autoImplicit false

namespace TypedVars.Format

variable (F : Format)

/-- The least `k` with a magnitude below `10 ^ k`. A magnitude below one is no power of ten, so the
digits of its inverse give the place. -/
def decimalPlaces (rank : Nat) : Int :=
  let units := F.units rank
  if F.one ≤ units then Decimal.digitCount (units / F.one)
  else 1 - (Decimal.digitCount (F.one / units) : Int)

/-- The two decimals with a given exponent next to a magnitude, the nearer one first; of two equally
near ones, the greater first. -/
def neighbours (rank : Nat) (exponent : Int) : List Decimal :=
  let num := F.units rank * Nat.pow 10 (-exponent).toNat
  let den := F.one * Nat.pow 10 exponent.toNat
  let below : Decimal := ⟨num / den, exponent⟩
  let above : Decimal := ⟨num / den + 1, exponent⟩
  if 2 * (num % den) < den then [below, above] else [above, below]

/-- The exact decimal of a magnitude. -/
def exactDecimal (rank : Nat) : Decimal := ⟨F.units rank * Nat.pow 5 F.scale, -(F.scale : Int)⟩

/-- A decimal stands for a magnitude when it reads back to it. -/
def readsBack (rank : Fin F.count) (d : Decimal) : Bool :=
  match d.toBinary F false with
  | .finite false found => found == rank
  | _ => false

/-- The first decimal that reads back, trying counts of digits upwards from `digits`. -/
def shortestFrom (rank : Fin F.count) (digits : Nat) : Nat → Decimal
  | 0 => F.exactDecimal rank
  | fuel + 1 =>
    match (F.neighbours rank (F.decimalPlaces rank - digits)).find? (F.readsBack rank) with
    | some found => found
    | none => shortestFrom rank (digits + 1) fuel

/-- The decimal of fewest digits that reads back to a magnitude, without trailing zeros. -/
def shortest (rank : Fin F.count) : Decimal :=
  if F.units rank = 0 then ⟨0, 0⟩ else (F.shortestFrom rank 1 17).trim

end TypedVars.Format
