import TypedVars.Proofs.Resolution.Agreement
import TypedVars.Proofs.Text.Occurrence

/-!
# Resolution and blanks

Which operators a text bears and what it evaluates to is decided by its words, so what a type
computes is a function of the words. Two texts with the same words are kept both or changed to the
same result, which is neither of them.
-/

set_option autoImplicit false

namespace TypedVars

open Arithmetic (Operation)
open Condition (Operator)

/-- The symbols of operations are looked for in the words of a text. -/
theorem Arithmetic.bearsOperator_eq_any_words (text : Text) :
    bearsOperator text = (Text.words text).any bearsOperator := by
  apply Text.any_occursIn_eq_any_words
  intro symbol hsymbol
  obtain ⟨operation, -, rfl⟩ := List.mem_map.1 hsymbol
  exact operation.isWord_symbol

/-- The symbols of conditions are looked for in the words of a text. -/
theorem Condition.bearsOperator_eq_any_words (text : Text) :
    bearsOperator text = (Text.words text).any bearsOperator := by
  apply Text.any_occursIn_eq_any_words
  intro symbol hsymbol
  obtain ⟨operator, -, rfl⟩ := List.mem_map.1 hsymbol
  exact operator.isWord_symbol

section

variable {first second : Text} (h : Text.words first = Text.words second)

include h

/-- Texts with the same words have the same arithmetic value. -/
theorem Arithmetic.evaluate?_eq_of_words_eq : evaluate? first = evaluate? second := by
  unfold evaluate? tokens
  rw [h]

/-- Texts with the same words are evaluated alike as conditions. -/
theorem Condition.evaluate_eq_of_words_eq : evaluate first = evaluate second := by
  unfold evaluate parse tokens
  rw [h]

/-- From texts with the same words the same is computed. -/
theorem TargetType.computed?_eq_of_words_eq (type : TargetType) :
    type.computed? first = type.computed? second := by
  unfold computed?
  rw [Arithmetic.bearsOperator_eq_any_words, Condition.bearsOperator_eq_any_words, h,
    ← Arithmetic.bearsOperator_eq_any_words, ← Condition.bearsOperator_eq_any_words,
    Arithmetic.evaluate?_eq_of_words_eq h, Condition.evaluate_eq_of_words_eq h]

end

namespace TargetType

/-- Texts that differ in their blanks only are both kept by a type, or both changed, and then to the
same result. -/
theorem resolve_of_words_eq {first second : Text} (h : Text.words first = Text.words second)
    (type : TargetType) :
    (type.resolve first = first ∧ type.resolve second = second) ∨
      (type.resolve first ≠ first ∧ type.resolve second ≠ second ∧
        type.resolve first = type.resolve second) := by
  have hcomputed := computed?_eq_of_words_eq h type
  have hfirst := type.changes_iff first
  have hsecond := type.changes_iff second
  unfold Changes at hfirst hsecond
  rw [hcomputed] at hfirst
  cases hresult : type.computed? second with
  | none =>
    rw [hresult] at hfirst hsecond
    left
    constructor
    · simpa using hfirst
    · simpa using hsecond
  | some result =>
    rw [hresult] at hcomputed hfirst hsecond
    right
    refine ⟨hfirst.2 rfl, hsecond.2 rfl, ?_⟩
    rw [resolve_of_computed? hcomputed, resolve_of_computed? hresult]

/-- Blanks of other kinds, in other places, leave the result of a product as it is. -/
theorem resolve_of_words_eq_product :
    Text.words "2 * -2.5".toList = Text.words "\u30002\t*\n\u00A0-2.5 ".toList ∧
      TargetType.float.resolve "\u30002\t*\n\u00A0-2.5 ".toList = "-5.0".toList := by
  have hwords : Text.words "2 * -2.5".toList = Text.words "\u30002\t*\n\u00A0-2.5 ".toList := by
    decide +kernel
  have hplain : TargetType.float.resolve "2 * -2.5".toList = "-5.0".toList := by decide +kernel
  refine ⟨hwords, ?_⟩
  rcases resolve_of_words_eq hwords .float with ⟨hkept, -⟩ | ⟨-, -, hsame⟩
  · rw [hplain] at hkept
    exact absurd hkept (by decide)
  · rw [← hsame, hplain]

end TargetType

end TypedVars
