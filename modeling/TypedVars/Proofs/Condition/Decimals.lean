import TypedVars.Proofs.Condition.Comparison
import TypedVars.Proofs.Condition.Gluing
import TypedVars.Proofs.Number.Positional

/-!
# Comparisons of decimal texts

A decimal text of any length stands for its integer as long as that fits sixty-four bits, and for
itself beyond that; no integer is wrapped or cut off at the end of the range. So a comparison of two
such texts is numeric on one side of the border, lexicographic on the other, and refused across it.
-/

set_option autoImplicit false

namespace TypedVars.Condition

open Digits (IsDecimal)
open Numeral (IsNumeral)
open Text (Blanks Spaced codePoints)

/-! ## Decimal texts as literals -/

/-- A numeral is a plain word, with nothing of an operator in it. -/
theorem isPlainWord_of_isNumeral {text : Text} (h : IsNumeral text) : IsPlainWord text :=
  ⟨h.isWord, fun _ hc => not_mem_operatorCharacters_of_isNumeral h hc⟩

/-- A decimal text stands for its integer within the range and for itself beyond it. -/
theorem ofToken_of_isDecimal {text : Text} {n : Int} (h : IsDecimal text n) :
    Literal.ofToken text = if FitsInt64 n then .integer (Int64.ofInt n) else .string text := by
  have hne (truth : Bool) : text ≠ booleanText truth := by
    rintro rfl
    have hnone : Digits.toInt? (booleanText truth) = none := by cases truth <;> decide
    rw [h.toInt?_eq] at hnone
    simp at hnone
  rw [Literal.ofToken, if_neg (hne true), if_neg (hne false), h.int64OfText?_eq]
  by_cases hfits : FitsInt64 n <;> simp [hfits]

/-! ## Comparing them -/

/-- Two plain words with a comparison between them are compared as the literals that they stand
for. -/
theorem evaluate_of_spaced {which : Comparison} {left right text : Text}
    (hleft : IsPlainWord left) (hright : IsPlainWord right)
    (htext : Spaced [left, (Operator.comparison which).symbol, right] text) :
    evaluate text = which.test (.ofToken left) (.ofToken right) := by
  have hlinks : ∀ link ∈ [(Operator.comparison which, right)], IsPlainWord link.2 := by
    simpa using hright
  have htokens : tokens text = linked left [(.comparison which, right)] :=
    tokens_of_spaced hleft hlinks htext
  rw [evaluate, parse, htokens, ofTokens_linked]
  rfl

/-- A comparison of two decimal texts of any length, with any blanks around its operator. Within the
range of sixty-four bits it is that of the integers. An integer within and a text beyond the range
are not compared, and two texts beyond it are compared as they are written. -/
theorem evaluate_decimal_comparison (which : Comparison) {left right text : Text} {n m : Int}
    (hleft : IsDecimal left n) (hright : IsDecimal right m)
    (htext : Spaced [left, (Operator.comparison which).symbol, right] text) :
    (FitsInt64 n → FitsInt64 m →
        ∃ value, evaluate text = .ok value ∧ (value = true ↔ which.Relates n m)) ∧
      (FitsInt64 n → ¬ FitsInt64 m →
        ∃ integer : Int64, integer.toInt = n ∧
          evaluate text = .error (.mismatch (.integer integer) (.string right))) ∧
      (¬ FitsInt64 n → FitsInt64 m →
        ∃ integer : Int64, integer.toInt = m ∧
          evaluate text = .error (.mismatch (.string left) (.integer integer))) ∧
      (¬ FitsInt64 n → ¬ FitsInt64 m →
        ∃ value, evaluate text = .ok value ∧
          (value = true ↔ which.Relates (codePoints left) (codePoints right))) := by
  have htest := evaluate_of_spaced (isPlainWord_of_isNumeral hleft.isNumeral)
    (isPlainWord_of_isNumeral hright.isNumeral) htext
  rw [ofToken_of_isDecimal hleft, ofToken_of_isDecimal hright] at htest
  rw [htest]
  refine ⟨?_, ?_, ?_, ?_⟩
  · intro hn hm
    have hnInt := toInt_ofInt_of_fitsInt64 hn
    have hmInt := toInt_ofInt_of_fitsInt64 hm
    rw [if_pos hn, if_pos hm]
    refine which.test_relates rfl ?_ ?_ ?_
    · rw [Literal.integer.injEq, ← Int64.toInt_inj, hnInt, hmInt]
    · rw [Literal.below_integer_iff, hnInt, hmInt]
    · rw [Literal.below_integer_iff, hnInt, hmInt]
  · intro hn hm
    rw [if_pos hn, if_neg hm]
    exact ⟨_, toInt_ofInt_of_fitsInt64 hn, which.test_of_kind_ne nofun⟩
  · intro hn hm
    rw [if_neg hn, if_pos hm]
    exact ⟨_, toInt_ofInt_of_fitsInt64 hm, which.test_of_kind_ne nofun⟩
  · intro hn hm
    rw [if_neg hn, if_neg hm]
    refine which.test_relates rfl ?_ Literal.below_string_iff Literal.below_string_iff
    rw [Literal.string.injEq, Text.codePoints_inj]

/-- At the end of the range with a plus sign and a leading zero, across the end, and beyond it,
where the greater integer has the lesser text. -/
theorem evaluate_decimal_comparison_border :
    evaluate "+09223372036854775807>=-9223372036854775808".toList = .ok true ∧
      evaluate "9223372036854775807 <9223372036854775808".toList =
        .error (.mismatch (.integer 9223372036854775807) (.string "9223372036854775808".toList)) ∧
      evaluate "9223372036854775808 < 10000000000000000000".toList = .ok false := by
  have hplus : IsDecimal ('+' :: "09223372036854775807".toList) 9223372036854775807 :=
    .plus (by decide) (by decide)
  have hminus : IsDecimal ('-' :: "9223372036854775808".toList) (-9223372036854775808) :=
    .minus (by decide) (by decide)
  have hlast : IsDecimal "9223372036854775807".toList 9223372036854775807 :=
    .unsigned (by decide) (by decide)
  have hnext : IsDecimal "9223372036854775808".toList 9223372036854775808 :=
    .unsigned (by decide) (by decide)
  have hlong : IsDecimal "10000000000000000000".toList 10000000000000000000 :=
    .unsigned (by decide) (by decide)
  have hend : Spaced [] [] := by simp [Spaced, Blanks]
  refine ⟨?_, ?_, ?_⟩
  · obtain ⟨value, hvalue, hiff⟩ := (evaluate_decimal_comparison .greaterEqual hplus hminus
      ⟨[], _, rfl, by decide, [], _, rfl, by decide, [], [], rfl, by decide, hend⟩).1
        (by decide) (by decide)
    rw [hiff.2 (by decide)] at hvalue
    exact hvalue
  · obtain ⟨integer, hinteger, hvalue⟩ := (evaluate_decimal_comparison .less hlast hnext
      ⟨[], _, rfl, by decide, [' '], _, rfl, by decide, [], [], rfl, by decide, hend⟩).2.1
        (by decide) (by decide)
    have hmax : (9223372036854775807 : Int64).toInt = 9223372036854775807 := by decide
    rw [Int64.toInt_inj.1 (hinteger.trans hmax.symm)] at hvalue
    exact hvalue
  · obtain ⟨value, hvalue, hiff⟩ := (evaluate_decimal_comparison .less hnext hlong
      ⟨[], _, rfl, by decide, [' '], _, rfl, by decide, [' '], [], rfl, by decide, hend⟩).2.2.2
        (by decide) (by decide)
    have hfalse : value = false := by
      rw [Bool.eq_false_iff, ne_eq, hiff]
      decide
    rw [hfalse] at hvalue
    exact hvalue

end TypedVars.Condition
