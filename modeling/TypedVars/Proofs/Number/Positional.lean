import Mathlib.Data.List.Induction
import Mathlib.Data.Nat.Digits.Defs
import TypedVars.Proofs.Number.Numeral

/-!
# The integers of decimal texts

An optional sign and digits of any number write an integer, by the places of the digits. One of the
texts of an integer is canonical: it has no plus sign, no leading zeros and no sign in front of
zero. That one is written, each of them is read, and none is read as an integer of sixty-four bits
unless its own integer is one.
-/

set_option autoImplicit false

namespace TypedVars

namespace Digits

/-- The number that digits write in the decimal system, where the last digit counts ones. -/
def positional (digits : Text) : Nat := Nat.ofDigits 10 (digits.reverse.map toDigit)

/-- A digit at the end counts once, and all others ten times as much as before. -/
theorem positional_append_singleton (digits : Text) (c : Char) :
    positional (digits ++ [c]) = 10 * positional digits + toDigit c := by
  simp [positional, Nat.ofDigits_cons, Nat.add_comm]

/-- Digits are read by their places. -/
theorem toNat_eq_positional (digits : Text) : toNat digits = positional digits := by
  induction digits using List.reverseRecOn with
  | nil => rfl
  | append_singleton front c ih =>
    rw [toNat_append_singleton, positional_append_singleton, ih]

instance (text : Text) : Decidable (IsDigits text) := List.decidableBAll _ text

/-- The texts of an optional sign and at least one digit, with their integers. -/
inductive IsDecimal : Text → Int → Prop
  | unsigned {digits : Text} (nonempty : digits ≠ []) (all : IsDigits digits) :
      IsDecimal digits (positional digits)
  | plus {digits : Text} (nonempty : digits ≠ []) (all : IsDigits digits) :
      IsDecimal ('+' :: digits) (positional digits)
  | minus {digits : Text} (nonempty : digits ≠ []) (all : IsDigits digits) :
      IsDecimal ('-' :: digits) (-(positional digits : Int))

/-- The texts of integers without a plus sign, leading zeros or a negative zero. -/
inductive IsCanonical : Text → Int → Prop
  | zero : IsCanonical ['0'] 0
  | positive {first : Char} {rest : Text} (nonzero : first ≠ '0') (all : IsDigits (first :: rest)) :
      IsCanonical (first :: rest) (positional (first :: rest))
  | negative {first : Char} {rest : Text} (nonzero : first ≠ '0') (all : IsDigits (first :: rest)) :
      IsCanonical ('-' :: first :: rest) (-(positional (first :: rest) : Int))

/-! ## Reading -/

/-- The decimal text of an integer is read as that integer. -/
theorem IsDecimal.toInt?_eq {text : Text} {n : Int} (h : IsDecimal text n) :
    toInt? text = some n := by
  cases h with
  | unsigned nonempty all =>
    rw [toInt?_eq_some (splitSign_of_opensUnsigned all.opensUnsigned) nonempty all,
      toNat_eq_positional]
    rfl
  | @plus digits nonempty all =>
    have hsplit : splitSign ('+' :: digits) = (false, digits) := rfl
    rw [toInt?_eq_some hsplit nonempty all, toNat_eq_positional]
    rfl
  | @minus digits nonempty all =>
    have hsplit : splitSign ('-' :: digits) = (true, digits) := rfl
    rw [toInt?_eq_some hsplit nonempty all, toNat_eq_positional]
    rfl

/-- The decimal text of an integer is a numeral. -/
theorem IsDecimal.isNumeral {text : Text} {n : Int} (h : IsDecimal text n) :
    Numeral.IsNumeral text := by
  cases h with
  | unsigned nonempty all =>
    exact ⟨[], text, rfl, .inl rfl, (Numeral.IsMantissa.whole nonempty all).isBody⟩
  | @plus digits nonempty all =>
    exact ⟨['+'], digits, rfl, .inr (.inl rfl), (Numeral.IsMantissa.whole nonempty all).isBody⟩
  | @minus digits nonempty all =>
    exact ⟨['-'], digits, rfl, .inr (.inr rfl), (Numeral.IsMantissa.whole nonempty all).isBody⟩

/-! ## Writing -/

/-- A positive number is printed without a zero in front. -/
theorem exists_ofNat_eq_cons {n : Nat} (h : 0 < n) :
    ∃ first rest, ofNat n = first :: rest ∧ first ≠ '0' := by
  induction n using Nat.strongRecOn with
  | ind n ih =>
    unfold ofNat
    split
    · next hsmall =>
      refine ⟨ofDigit n, [], rfl, ?_⟩
      intro hzero
      have hdigit := toDigit_ofDigit hsmall
      rw [hzero] at hdigit
      exact Nat.ne_of_gt h hdigit.symm
    · next hlarge =>
      obtain ⟨first, rest, hfront, hfirst⟩ := ih (n / 10) (by omega) (by omega)
      exact ⟨first, rest ++ [ofDigit (n % 10)], by rw [hfront]; rfl, hfirst⟩

/-- Zero is printed as one digit. -/
theorem ofInt_zero : ofInt 0 = ['0'] := by decide +kernel

/-- The printed integer is the canonical text of the integer. -/
theorem isCanonical_ofInt (n : Int) : IsCanonical (ofInt n) n := by
  by_cases hzero : n = 0
  · rw [hzero, ofInt_zero]
    exact .zero
  obtain ⟨first, rest, hwritten, hfirst⟩ :=
    exists_ofNat_eq_cons (Int.natAbs_pos.2 hzero)
  have hdigits : IsDigits (first :: rest) := hwritten ▸ isDigits_ofNat n.natAbs
  have hvalue : positional (first :: rest) = n.natAbs := by
    rw [← hwritten, ← toNat_eq_positional, toNat_ofNat]
  unfold ofInt
  split
  · next hneg =>
    have hn : n = -(positional (first :: rest) : Int) := by omega
    rw [hwritten, hn]
    exact .negative hfirst hdigits
  · next hnonneg =>
    have hn : n = positional (first :: rest) := by omega
    rw [hwritten, hn]
    exact .positive hfirst hdigits

end Digits

/-! ## Sixty-four bits -/

/-- The integers that sixty-four bits with a sign can hold. -/
def FitsInt64 (n : Int) : Prop := -2 ^ 63 ≤ n ∧ n ≤ 2 ^ 63 - 1

instance (n : Int) : Decidable (FitsInt64 n) :=
  inferInstanceAs (Decidable (-2 ^ 63 ≤ n ∧ n ≤ 2 ^ 63 - 1))

/-- The test for sixty-four bits is that of the range. -/
theorem fitsInt64_iff {n : Int} : fitsInt64 n = true ↔ FitsInt64 n := by
  simp only [fitsInt64, FitsInt64, Bool.and_eq_true, decide_eq_true_eq]
  omega

/-- An integer is kept when it fits sixty-four bits. -/
theorem filter_fitsInt64_some (n : Int) :
    (some n).filter fitsInt64 = if FitsInt64 n then some n else none := by
  simp only [Option.filter_some, fitsInt64_iff]

/-- An integer that fits sixty-four bits is kept by them. -/
theorem toInt_ofInt_of_fitsInt64 {n : Int} (h : FitsInt64 n) : (Int64.ofInt n).toInt = n := by
  obtain ⟨hlow, hhigh⟩ := h
  exact Int64.toInt_ofInt_of_le hlow (by omega)

/-- A decimal text is read as an integer of sixty-four bits when its own integer is one, and is
refused otherwise. -/
theorem Digits.IsDecimal.int64OfText?_eq {text : Text} {n : Int} (h : IsDecimal text n) :
    int64OfText? text = if FitsInt64 n then some (Int64.ofInt n) else none := by
  rw [int64OfText?, h.toInt?_eq, filter_fitsInt64_some]
  split <;> rfl

end TypedVars
