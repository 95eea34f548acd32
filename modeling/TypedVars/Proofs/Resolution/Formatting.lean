import TypedVars.Proofs.Number.Conversion
import TypedVars.Proofs.Number.Value
import TypedVars.Proofs.Resolution.Agreement

/-!
# The integers that are stored for a number

An integer type stores the exact rational number of an encoding, rounded or truncated, as long as
the integer has sixty-four bits, and stores nothing otherwise. The same texts come from the integral
floating-point number next to it, compared with the ends of the range and converted.
-/

set_option autoImplicit false

namespace TypedVars

open Digits (IsCanonical isCanonical_ofInt ofInt)

namespace TargetType

/-- What is stored for an integer: its canonical text in range, and otherwise nothing. Where there
is no integer, nothing is stored. -/
inductive Stores : Option Int → Option Text → Prop
  | written {n : Int} {text : Text} (fits : FitsInt64 n) (canonical : IsCanonical text n) :
      Stores (some n) (some text)
  | beyond {n : Int} (unfit : ¬ FitsInt64 n) : Stores (some n) none
  | missing : Stores none none

/-- An integer that fits sixty-four bits is stored as it is printed. -/
theorem stores_map_ofInt (integer? : Option Int) :
    Stores integer? ((integer?.filter fitsInt64).map ofInt) := by
  cases integer? with
  | none => exact .missing
  | some n =>
    rw [filter_fitsInt64_some]
    split_ifs with h
    · exact .written h (isCanonical_ofInt n)
    · exact .beyond h

/-- The text of a converted number. -/
def convertedText? (number : Binary64) : Option Text :=
  number.toInt64?.map fun integer => ofInt integer.toInt

/-- A number that holds an integer is converted to the printed integer, if that fits. -/
theorem convertedText?_of_holdsInt {number : Binary64} {integer? : Option Int}
    (h : number.HoldsInt integer?) :
    convertedText? number = (integer?.filter fitsInt64).map ofInt := by
  rw [convertedText?, h.toInt64?_eq, Option.map_map]
  apply Option.map_congr
  intro n hn
  have hfits : fitsInt64 n = true := (Option.filter_eq_some_iff.1 hn).2
  exact congrArg ofInt (toInt_ofInt_of_fitsInt64 (fitsInt64_iff.1 hfits))

/-- For every encoding, the integer types store the canonical text of its exact value, rounded with
halves away from zero or truncated, if that has sixty-four bits, and both of them store nothing
otherwise. This is the text of the integral floating-point number that is converted. -/
theorem formatNumber_integers_exact (bits : Nat) :
    Stores ((encodedValue? bits).map nearestAway) (TargetType.int.formatNumber (.ofBits bits)) ∧
      Stores ((encodedValue? bits).map towardZero) (TargetType.long.formatNumber (.ofBits bits)) ∧
      ((TargetType.int.formatNumber (.ofBits bits)).isSome = true ↔
        (TargetType.long.formatNumber (.ofBits bits)).isSome = true) ∧
      TargetType.int.formatNumber (.ofBits bits) =
        convertedText? (Binary.ofBits bits).nearestIntegral ∧
      TargetType.long.formatNumber (.ofBits bits) =
        convertedText? (Binary.ofBits bits).truncatedIntegral := by
  have hwide := Format.wide_binary64
  refine ⟨?_, ?_, ?_, ?_, ?_⟩
  · rw [← Binary.value?_ofBits, ← Binary.roundToInt?_eq]
    exact stores_map_ofInt _
  · rw [← Binary.value?_ofBits, ← Binary.truncateToInt?_eq]
    exact stores_map_ofInt _
  · rcases formatNumber_integers (.ofBits bits) with
      ⟨hint, hlong⟩ | ⟨rounded, truncated, hint, hlong, -⟩
    · rw [hint, hlong]
    · rw [hint, hlong, Option.isSome_some, Option.isSome_some]
  · exact (convertedText?_of_holdsInt (Binary.holdsInt_nearestIntegral hwide _)).symm
  · exact (convertedText?_of_holdsInt (Binary.holdsInt_truncatedIntegral hwide _)).symm

/-- Just below a half, the last number in range and the number behind it, and a negative half. -/
example :
    TargetType.int.formatNumber (.ofBits 0x3FDFFFFFFFFFFFFF) = some "0".toList ∧
      TargetType.int.formatNumber (.ofBits 0x43DFFFFFFFFFFFFF) =
        some "9223372036854774784".toList ∧
      TargetType.int.formatNumber (.ofBits 0x43E0000000000000) = none ∧
      TargetType.int.formatNumber (.ofBits 0xBFE0000000000000) = some "-1".toList ∧
      TargetType.long.formatNumber (.ofBits 0xBFE0000000000000) = some "0".toList := by
  decide +kernel

end TargetType

end TypedVars
