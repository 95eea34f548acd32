import TypedVars.Proofs.Arithmetic.Stored
import TypedVars.Proofs.Condition.RoundTrip
import TypedVars.Resolution

/-!
# Stability of resolved values

A computed value is never computed again. Written numbers are single operands, except for negative
infinity, which is an operation and a word, and neither they nor the words for truth values bear the
symbol of a condition operator. So a value that resolution has changed is kept by every type.
-/

set_option autoImplicit false

namespace TypedVars

open Arithmetic (IsOperand Operation isOperand_or_eq_of_formatNumber negativeInfinity
  singleton_mem_symbols unbroken_of_forall_not_mem)
open Condition (SymbolFree bearsOperator_eq_false_iff booleanText symbolFree_of_isNumeral)

/-- A text of which no type makes another: it has no arithmetic value and bears no symbol of a
condition operator. -/
structure Inert (text : Text) : Prop where
  /-- The text is no triple. -/
  evaluate?_eq : Arithmetic.evaluate? text = none
  /-- No condition is looked for in the text. -/
  symbolFree : SymbolFree text

/-- Nothing is computed from an inert text. -/
theorem Inert.computed?_eq {text : Text} (h : Inert text) (type : TargetType) :
    type.computed? text = none := by
  rw [TargetType.computed?, h.evaluate?_eq, bearsOperator_eq_false_iff.2 h.symbolFree]
  simp

/-- An inert text resolves to itself, whatever the type. -/
theorem Inert.resolve_eq {text : Text} (h : Inert text) (type : TargetType) :
    type.resolve text = text := by
  rw [TargetType.resolve, h.computed?_eq, Option.getD_none]

/-! ## Computed values -/

/-- A single token has no arithmetic value. -/
theorem Arithmetic.evaluate?_of_whole {text : Text} (hword : Text.IsWord text)
    (hwhole : Text.Whole Operation.symbols text) : Arithmetic.evaluate? text = none := by
  have htokens : Arithmetic.tokens text = [text] := by
    rw [Arithmetic.tokens, Text.words_of_isWord hword, Text.splitOperators_cons, hwhole]
    rfl
  apply Arithmetic.evaluate?_eq_none_of_length
  rw [htokens, List.length_singleton]
  decide

/-- An operand alone is inert. -/
theorem inert_of_isOperand {text : Text} (h : IsOperand text) : Inert text :=
  ⟨Arithmetic.evaluate?_of_whole h.isNumeral.isWord h.texts_eq, symbolFree_of_isNumeral h.isNumeral⟩

/-- Negative infinity is inert, being divided into a minus and a word. -/
theorem inert_negativeInfinity : Inert negativeInfinity := by
  have htokens : Arithmetic.tokens negativeInfinity = [['-'], ['i', 'n', 'f']] := by
    rw [Arithmetic.tokens, Text.words_of_isWord Arithmetic.isWord_negativeInfinity,
      Text.splitOperators_cons, Arithmetic.texts_negativeInfinity]
    rfl
  refine ⟨Arithmetic.evaluate?_eq_none_of_length ?_, by decide⟩
  rw [htokens]
  decide

/-- The spelling of a boolean is inert. -/
theorem inert_booleanText (value : Bool) : Inert (booleanText value) := by
  have hword : Text.IsWord (booleanText value) := by
    cases value <;> decide
  have hwhole : Text.Whole Operation.symbols (booleanText value) := by
    refine Text.whole_of_unbroken hword.1 (unbroken_of_forall_not_mem ?_)
    cases value <;> simp [booleanText, singleton_mem_symbols]
  refine ⟨Arithmetic.evaluate?_of_whole hword hwhole, ?_⟩
  cases value <;> decide

/-- A stored result is inert. -/
theorem inert_of_formatNumber {type : TargetType} {number : Binary64} {result : Text}
    (h : type.formatNumber number = some result) : Inert result := by
  rcases isOperand_or_eq_of_formatNumber h with hoperand | rfl
  · exact inert_of_isOperand hoperand
  · exact inert_negativeInfinity

/-- Whatever is computed is inert. -/
theorem inert_of_computed? {type : TargetType} {raw result : Text}
    (h : type.computed? raw = some result) : Inert result := by
  unfold TargetType.computed? at h
  split at h
  · obtain ⟨number, -, hnumber⟩ := Option.bind_eq_some_iff.1 h
    exact inert_of_formatNumber hnumber
  · split at h
    · split at h
      · next value _ =>
        obtain rfl : booleanText value = result := Option.some.inj h
        exact inert_booleanText value
      · simp at h
    · simp at h

/-- A value that resolution has changed is kept by every type, and so resolving it for the same type
a second time changes nothing. -/
theorem TargetType.resolve_resolve (type : TargetType) (raw : Text) :
    (type.resolve raw ≠ raw →
      ∀ other : TargetType, other.resolve (type.resolve raw) = type.resolve raw) ∧
      type.resolve (type.resolve raw) = type.resolve raw := by
  have hstable (hchanged : type.resolve raw ≠ raw) : Inert (type.resolve raw) := by
    rw [TargetType.resolve] at hchanged ⊢
    cases hcomputed : type.computed? raw with
    | none => exact absurd (by rw [hcomputed, Option.getD_none]) hchanged
    | some result => exact inert_of_computed? hcomputed
  constructor
  · intro hchanged other
    exact (hstable hchanged).resolve_eq other
  by_cases hchanged : type.resolve raw = raw
  · rw [hchanged, hchanged]
  · exact (hstable hchanged).resolve_eq type

/-- A negative power of ten bears two characters of operations, and every type keeps it. -/
theorem resolve_negative_power :
    TargetType.resolve .double "-1 / 10000000".toList = "-1e-7".toList ∧
      ∀ other : TargetType, other.resolve "-1e-7".toList = "-1e-7".toList := by
  have hresolve : TargetType.resolve .double "-1 / 10000000".toList = "-1e-7".toList := by
    decide +kernel
  have hchanged : TargetType.resolve .double "-1 / 10000000".toList ≠ "-1 / 10000000".toList := by
    rw [hresolve]
    decide
  have hstable := (TargetType.resolve_resolve .double "-1 / 10000000".toList).1 hchanged
  rw [hresolve] at hstable
  exact ⟨hresolve, hstable⟩

end TypedVars
