import TypedVars.Number.Integer
import TypedVars.Proofs.Text.Words

/-!
# Written integers

The decimal text of a number consists of digits, with a minus sign in front of a negative one, and
it is read back as that number.
-/

set_option autoImplicit false

namespace TypedVars.Digits

/-- A text of decimal digits, possibly empty. -/
def IsDigits (text : Text) : Prop := ∀ c ∈ text, Text.isDigit c = true

/-- Digits are the characters from the code point of zero to that of nine. -/
theorem isDigit_iff {c : Char} : Text.isDigit c = true ↔ 48 ≤ c.toNat ∧ c.toNat ≤ 57 := by
  simp only [Text.isDigit, Bool.and_eq_true, decide_eq_true_eq, Char.le_def, UInt32.le_iff_toNat_le]
  rfl

/-- Digits behind digits are digits. -/
theorem IsDigits.append {left right : Text} (hleft : IsDigits left) (hright : IsDigits right) :
    IsDigits (left ++ right) := by
  intro c hc
  rcases List.mem_append.1 hc with hc | hc
  · exact hleft c hc
  · exact hright c hc

/-- The character of a digit is a digit. -/
theorem isDigit_ofDigit {d : Nat} (h : d < 10) : Text.isDigit (ofDigit d) = true := by
  have table : ∀ d : Fin 10, Text.isDigit (ofDigit d) = true := by decide
  exact table ⟨d, h⟩

/-- A number is printed with digits only. -/
theorem isDigits_ofNat (n : Nat) : IsDigits (ofNat n) := by
  induction n using Nat.strongRecOn with
  | ind n ih =>
    unfold ofNat
    split
    · next h => simpa [IsDigits] using isDigit_ofDigit h
    · next h =>
      refine (ih (n / 10) (by omega)).append ?_
      simpa [IsDigits] using isDigit_ofDigit (Nat.mod_lt n (by omega))

/-- A number is never printed as the empty text. -/
theorem ofNat_ne_nil (n : Nat) : ofNat n ≠ [] := by
  unfold ofNat
  split <;> simp

/-- A text opens without a sign when its first character, if there is one, is none. -/
def OpensUnsigned (text : Text) : Prop := ∀ c rest, text = c :: rest → c ≠ '-' ∧ c ≠ '+'

/-- A text that opens without a sign is split off none. -/
theorem splitSign_of_opensUnsigned {text : Text} (h : OpensUnsigned text) :
    splitSign text = (false, text) := by
  cases text with
  | nil => rfl
  | cons c rest =>
    obtain ⟨hminus, hplus⟩ := h c rest rfl
    simp [splitSign, hminus, hplus]

/-- Digits open without a sign. -/
theorem IsDigits.opensUnsigned {digits : Text} (h : IsDigits digits) : OpensUnsigned digits := by
  rintro c rest rfl
  have hc : Text.isDigit c = true := h c (by simp)
  constructor <;> rintro rfl <;> exact absurd hc (by decide)

/-- Digits behind a sign, if there are any, are read as the number that they denote. -/
theorem toInt?_eq_some {text digits : Text} {negative : Bool}
    (hsplit : splitSign text = (negative, digits)) (hne : digits ≠ []) (h : IsDigits digits) :
    toInt? text = some (if negative then -(toNat digits : Int) else toNat digits) := by
  have hempty : digits.isEmpty = false := List.isEmpty_eq_false_iff.2 hne
  have hall : digits.all Text.isDigit = true := List.all_eq_true.2 h
  simp [toInt?, hsplit, hempty, hall]

/-- Reading a written integer gives it back. -/
theorem toInt?_ofInt (n : Int) : toInt? (ofInt n) = some n := by
  have hdigits := isDigits_ofNat n.natAbs
  have hne := ofNat_ne_nil n.natAbs
  unfold ofInt
  split
  · next h =>
    have hsplit : splitSign ('-' :: ofNat n.natAbs) = (true, ofNat n.natAbs) := rfl
    rw [toInt?_eq_some hsplit hne hdigits, toNat_ofNat, if_pos rfl]
    congr 1
    omega
  · next h =>
    have hsplit := splitSign_of_opensUnsigned hdigits.opensUnsigned
    rw [toInt?_eq_some hsplit hne hdigits, toNat_ofNat]
    simp only [Bool.false_eq_true, if_false]
    congr 1
    omega

end TypedVars.Digits

namespace TypedVars

/-- The value of an integer of sixty-four bits fits these. -/
theorem fitsInt64_toInt (value : Int64) : fitsInt64 value.toInt = true := by
  have hlow := value.le_toInt
  have hhigh := value.toInt_lt
  simp only [fitsInt64, Bool.and_eq_true, decide_eq_true_eq]
  omega

/-- Reading a written integer of sixty-four bits gives it back. -/
theorem int64OfText?_ofInt (value : Int64) :
    int64OfText? (Digits.ofInt value.toInt) = some value := by
  rw [int64OfText?, Digits.toInt?_ofInt, Option.filter_some, if_pos (fitsInt64_toInt value),
    Option.map_some, Int64.ofInt_toInt]

end TypedVars
