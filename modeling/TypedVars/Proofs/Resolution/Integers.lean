import TypedVars.Proofs.Arithmetic.Stored
import TypedVars.Proofs.Number.Quotient
import TypedVars.Proofs.Number.Truncation
import TypedVars.Resolution

/-!
# Integer variables compute with integers

The value of an operation is a floating-point number, but the integer types store the exact result
of a sum, a difference or a product of integers up to `2 ^ 53`. Of a quotient they store the exact
one, rounded to the nearest integer or truncated, when the dividend is below `2 ^ 52`. A dividend
beyond that can round to a half that the quotient does not reach.
-/

set_option autoImplicit false

namespace TypedVars

open Arithmetic (Operation isOperand_ofInt spaced)
open Digits (ofInt)

/-- The exact result of an operation on integers; a quotient need not be an integer. -/
def Arithmetic.Operation.exactResult? : Operation → Int → Int → Option Int
  | .add, n, m => some (n + m)
  | .sub, n, m => some (n - m)
  | .mul, n, m => some (n * m)
  | .div, _, _ => none

/-- A binade of doubles has as many ranks as fifty-two bits tell apart. -/
theorem binadeSize_binary64 : Format.binary64.binadeSize = 2 ^ 52 := rfl

/-- An operation with an exact result below the greatest exact magnitude holds that result. -/
theorem isInt_apply {left right : Binary64} {n m result : Int} {operation : Operation}
    (hleft : left.IsInt n) (hright : right.IsInt m)
    (hexact : operation.exactResult? n m = some result)
    (hresult : result.natAbs ≤ 2 * Format.binary64.binadeSize) :
    (operation.apply left right).IsInt result := by
  cases operation with
  | add =>
    obtain rfl : n + m = result := Option.some.inj hexact
    exact hleft.add Format.wide_binary64 hright hresult
  | sub =>
    obtain rfl : n - m = result := Option.some.inj hexact
    exact hleft.sub Format.wide_binary64 hright hresult
  | mul =>
    obtain rfl : n * m = result := Option.some.inj hexact
    exact hleft.mul Format.wide_binary64 hright hresult
  | div => simp [Operation.exactResult?] at hexact

/-! ## Storing integers -/

/-- A number that holds an integer is rounded to that integer. -/
theorem Binary.IsInt.roundToInt?_eq {F : Format} {number : Binary F} {n : Int}
    (h : number.IsInt n) : number.roundToInt? = some n := by
  cases h with
  | @intro negative rank magnitude hunits =>
    have hnearest : (2 * F.units rank + F.one) / (2 * F.one) = magnitude := by
      have hwhole : F.one ∣ F.units rank := by
        rw [hunits]
        exact Nat.dvd_mul_left _ _
      rw [rounded_div_of_dvd F.one_pos hwhole, hunits, Nat.mul_div_cancel _ F.one_pos]
    unfold roundToInt?
    dsimp only
    rw [hnearest]
    rfl

/-- A number that holds an integer is truncated to that integer. -/
theorem Binary.IsInt.truncateToInt?_eq {F : Format} {number : Binary F} {n : Int}
    (h : number.IsInt n) : number.truncateToInt? = some n := by
  cases h with
  | @intro negative rank magnitude hunits =>
    have hfloor : F.units rank / F.one = magnitude := by
      rw [hunits, Nat.mul_div_cancel _ F.one_pos]
    unfold truncateToInt?
    dsimp only
    rw [hfloor]
    rfl

/-- An integer within the exact range of doubles fits sixty-four bits. -/
theorem fitsInt64_of_natAbs_le {n : Int} (h : n.natAbs ≤ 2 ^ 53) : fitsInt64 n = true := by
  simp only [fitsInt64, Bool.and_eq_true, decide_eq_true_eq]
  omega

/-- An integer within the exact range of doubles is printed and not refused. -/
theorem map_ofInt_filter_fits {integer? : Option Int} {n : Int} (h : integer? = some n)
    (hn : n.natAbs ≤ 2 ^ 53) : (integer?.filter fitsInt64).map ofInt = some (ofInt n) := by
  rw [h, Option.filter_some, if_pos (fitsInt64_of_natAbs_le hn)]
  rfl

/-- A number that is rounded within the exact range is stored as an int by the rounded integer. -/
theorem formatNumber_int {number : Binary64} {n : Int} (hrounded : number.roundToInt? = some n)
    (hn : n.natAbs ≤ 2 ^ 53) : TargetType.int.formatNumber number = some (ofInt n) :=
  map_ofInt_filter_fits hrounded hn

/-- A number that is truncated within the exact range is stored as a long by the truncated
integer. -/
theorem formatNumber_long {number : Binary64} {n : Int}
    (htruncated : number.truncateToInt? = some n) (hn : n.natAbs ≤ 2 ^ 53) :
    TargetType.long.formatNumber number = some (ofInt n) :=
  map_ofInt_filter_fits htruncated hn

/-! ## Resolving operations -/

/-- Two operands around an operation bear an operator. -/
theorem bearsOperator_spaced (left : Text) (operation : Operation) (right : Text) :
    Arithmetic.bearsOperator (spaced left operation right) = true := by
  apply Arithmetic.bearsOperator_of_occurs operation
  exact ⟨left ++ [' '], ' ' :: right, by simp [spaced]⟩

/-- A text with an operator and a value that can be stored resolves to the stored value. -/
theorem resolve_of_evaluate? {type : TargetType} {raw stored : Text} {number : Binary64}
    (hbears : Arithmetic.bearsOperator raw = true)
    (hvalue : Arithmetic.evaluate? raw = some number)
    (hstored : type.formatNumber number = some stored) : type.resolve raw = stored := by
  rw [TargetType.resolve, TargetType.computed?, if_pos hbears, hvalue, Option.bind_some, hstored]
  rfl

/-- A spaced operation on integers resolves to what is stored of its value. -/
theorem exists_resolve_spaced {n m : Int} (hn : n.natAbs ≤ 2 ^ 53) (hm : m.natAbs ≤ 2 ^ 53)
    (operation : Operation) :
    ∃ left right : Binary64, left.IsInt n ∧ right.IsInt m ∧
      ∀ (type : TargetType) (stored : Text),
        type.formatNumber (operation.apply left right) = some stored →
        type.resolve (spaced (ofInt n) operation (ofInt m)) = stored := by
  obtain ⟨left, hleft, hleftInt⟩ := Binary.exists_ofText?_ofInt Format.wide_binary64 hn
  obtain ⟨right, hright, hrightInt⟩ := Binary.exists_ofText?_ofInt Format.wide_binary64 hm
  refine ⟨left, right, hleftInt, hrightInt, ?_⟩
  intro type stored hstored
  have hvalue := Arithmetic.evaluate?_spaced operation (isOperand_ofInt n) (isOperand_ofInt m)
    hleft hright
  exact resolve_of_evaluate? (bearsOperator_spaced _ _ _) hvalue hstored

/-- A bound for the absolute value is one for the magnitude. -/
theorem natAbs_le_of_abs_le {n : Int} {bound : Nat} (h : |n| ≤ bound) : n.natAbs ≤ bound := by
  rw [Int.abs_eq_natAbs] at h
  exact Int.ofNat_le.1 h

/-- Integers up to `2 ^ 53` are added, subtracted and multiplied exactly as long as the result is
one of them, and a dividend below `2 ^ 52` is divided by them exactly but for the last step, which
rounds halves away from zero or truncates. -/
theorem resolve_integer_operation (n m : Int) (hn : |n| ≤ 2 ^ 53) (hm : |m| ≤ 2 ^ 53) :
    (∀ operation result, Operation.exactResult? operation n m = some result → |result| ≤ 2 ^ 53 →
      TargetType.int.resolve (spaced (ofInt n) operation (ofInt m)) = ofInt result ∧
        TargetType.long.resolve (spaced (ofInt n) operation (ofInt m)) = ofInt result) ∧
      (|n| < 2 ^ 52 → m ≠ 0 →
        TargetType.int.resolve (spaced (ofInt n) .div (ofInt m)) =
            ofInt (nearestAway ((n : ℚ) / m)) ∧
          TargetType.long.resolve (spaced (ofInt n) .div (ofInt m)) = ofInt (Int.tdiv n m)) := by
  have hnAbs := natAbs_le_of_abs_le hn
  have hmAbs := natAbs_le_of_abs_le hm
  constructor
  · intro operation result hexact hresult
    have hresultAbs := natAbs_le_of_abs_le hresult
    obtain ⟨left, right, hleft, hright, hresolve⟩ := exists_resolve_spaced hnAbs hmAbs operation
    have hvalue := isInt_apply hleft hright hexact hresultAbs
    exact ⟨hresolve _ _ (formatNumber_int hvalue.roundToInt?_eq hresultAbs),
      hresolve _ _ (formatNumber_long hvalue.truncateToInt?_eq hresultAbs)⟩
  · intro hsmall hne
    have hsmallAbs : n.natAbs < Format.binary64.binadeSize := by
      rw [Int.abs_eq_natAbs] at hsmall
      exact Int.ofNat_lt.1 hsmall
    obtain ⟨left, right, hleft, hright, hresolve⟩ := exists_resolve_spaced hnAbs hmAbs .div
    obtain ⟨htruncated, hrounded⟩ := hleft.div Format.wide_binary64 hright hsmallAbs hne hmAbs
    have hnearest : (nearestAway ((n : ℚ) / m)).natAbs ≤ 2 ^ 53 := by
      have hbound := natAbs_nearestAway_le n m hne
      rw [binadeSize_binary64] at hsmallAbs
      omega
    have htdiv : (Int.tdiv n m).natAbs ≤ 2 ^ 53 := by
      rw [Int.natAbs_tdiv]
      exact (Nat.div_le_self _ _).trans hnAbs
    exact ⟨hresolve _ _ (formatNumber_int hrounded hnearest),
      hresolve _ _ (formatNumber_long htruncated htdiv)⟩

/-- A half next to the greatest dividend, and a product next to the end of the range. -/
theorem resolve_integer_operation_half :
    TargetType.int.resolve "-4503599627370495 * 2".toList = "-9007199254740990".toList ∧
      TargetType.int.resolve "-4503599627370495 / 2".toList = "-2251799813685248".toList ∧
      TargetType.long.resolve "-4503599627370495 / 2".toList = "-2251799813685247".toList := by
  obtain ⟨hexact, hquotient⟩ :=
    resolve_integer_operation (-4503599627370495) 2 (by norm_num) (by norm_num)
  obtain ⟨hproduct, -⟩ := hexact .mul (-9007199254740990) rfl (by norm_num)
  obtain ⟨hint, hlong⟩ := hquotient (by norm_num) (by norm_num)
  have hnearest : nearestAway (((-4503599627370495 : Int) : ℚ) / (2 : Int)) =
      -2251799813685248 := by
    norm_num [nearestAway, round_eq]
  rw [hnearest] at hint
  have hmul : spaced (ofInt (-4503599627370495)) .mul (ofInt 2) =
      "-4503599627370495 * 2".toList := by decide +kernel
  have hdiv : spaced (ofInt (-4503599627370495)) .div (ofInt 2) =
      "-4503599627370495 / 2".toList := by decide +kernel
  rw [hmul] at hproduct
  rw [hdiv] at hint hlong
  rw [hproduct, hint, hlong]
  decide +kernel

end TypedVars
