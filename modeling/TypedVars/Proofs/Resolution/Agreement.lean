import TypedVars.Proofs.Number.Truncation
import TypedVars.Proofs.Resolution.Stability

/-!
# What the types make of one text

A type changes a text exactly when it computes a result for it, as a computed result is never
computed again and a text that has one is. All types but that of truth values compute from the one
arithmetic value of the text and differ only in which values they store: the floating-point types
store every value, the integer types store the same values, and texts are kept. Truth values are
computed of texts without arithmetic operators, which no other type changes.
-/

set_option autoImplicit false

namespace TypedVars

open Condition (booleanText)
open Digits (ofInt)

namespace TargetType

/-- A type changes a raw text when it stores another text for it. -/
def Changes (type : TargetType) (raw : Text) : Prop := type.resolve raw ≠ raw

/-- A computed text is what a raw text resolves to. -/
theorem resolve_of_computed? {type : TargetType} {raw result : Text}
    (h : type.computed? raw = some result) : type.resolve raw = result := by
  rw [resolve, h, Option.getD_some]

/-- A result is never the text that it is computed from. -/
theorem changes_iff (type : TargetType) (raw : Text) :
    type.Changes raw ↔ (type.computed? raw).isSome = true := by
  unfold Changes
  cases hcomputed : type.computed? raw with
  | none =>
    rw [resolve, hcomputed]
    simp
  | some result =>
    have hne : result ≠ raw := by
      rintro rfl
      rw [(inert_of_computed? hcomputed).computed?_eq] at hcomputed
      simp at hcomputed
    rw [resolve_of_computed? hcomputed]
    simpa using hne

/-- Resolving twice is resolving once. -/
theorem resolve_idem (type : TargetType) (raw : Text) :
    type.resolve (type.resolve raw) = type.resolve raw := by
  cases hcomputed : type.computed? raw with
  | none =>
    have hkept : type.resolve raw = raw := by
      rw [resolve, hcomputed, Option.getD_none]
    rw [hkept, hkept]
  | some result =>
    rw [resolve_of_computed? hcomputed]
    exact (inert_of_computed? hcomputed).resolve_eq type

/-! ## Numbers -/

/-- All types but that of truth values compute from the arithmetic value of the text. -/
theorem computed?_of_ne_boolean {type : TargetType} (hne : type ≠ .boolean) (raw : Text) :
    type.computed? raw = (Arithmetic.evaluate? raw).bind type.formatNumber := by
  unfold computed?
  split
  · rfl
  · next hbears =>
    rw [Arithmetic.evaluate?_eq_none_of_not_bearsOperator hbears]
    simp [hne]

/-- A type that stores every number changes the texts with an arithmetic value. -/
theorem changes_iff_of_stores {type : TargetType} (hne : type ≠ .boolean)
    (hstores : ∀ number, (type.formatNumber number).isSome = true) (raw : Text) :
    type.Changes raw ↔ (Arithmetic.evaluate? raw).isSome = true := by
  rw [changes_iff, computed?_of_ne_boolean hne]
  cases Arithmetic.evaluate? raw with
  | none => simp
  | some number => simpa using hstores number

/-- As a double a text is changed just when it has an arithmetic value. -/
theorem changes_double_iff (raw : Text) :
    TargetType.double.Changes raw ↔ (Arithmetic.evaluate? raw).isSome = true :=
  changes_iff_of_stores (by decide) (fun _ => rfl) raw

/-- As a float a text is changed just when it has an arithmetic value. -/
theorem changes_float_iff (raw : Text) :
    TargetType.float.Changes raw ↔ (Arithmetic.evaluate? raw).isSome = true :=
  changes_iff_of_stores (by decide) (fun _ => rfl) raw

/-! ## Integers -/

/-- Rounding does not leave the range of sixty-four bits where truncating does not. -/
theorem fitsInt64_eq_of_outward {rounded truncated : Int} (houtward : Outward rounded truncated)
    (hnear : rounded = truncated ∨ truncated.natAbs < Format.binary64.binadeSize) :
    fitsInt64 rounded = fitsInt64 truncated := by
  rcases hnear with rfl | hsmall
  · rfl
  · have hdistance := abs_le.1 houtward.distance_le
    have hsize : Format.binary64.binadeSize = 2 ^ 52 := rfl
    rw [hsize] at hsmall
    simp only [fitsInt64]
    congr 1 <;> rw [decide_eq_decide] <;> omega

/-- The integer types store a number both or neither. -/
theorem formatNumber_integers (number : Binary64) :
    (TargetType.int.formatNumber number = none ∧ TargetType.long.formatNumber number = none) ∨
      ∃ rounded truncated, TargetType.int.formatNumber number = some (ofInt rounded) ∧
        TargetType.long.formatNumber number = some (ofInt truncated) ∧
        fitsInt64 rounded = true ∧ fitsInt64 truncated = true ∧ Outward rounded truncated := by
  unfold formatNumber
  dsimp only
  rcases number.rounded_truncated with
    ⟨hrounded, htruncated⟩ | ⟨rounded, truncated, hrounded, htruncated, houtward, hnear⟩
  · rw [hrounded, htruncated]
    exact .inl ⟨rfl, rfl⟩
  · have hfits := fitsInt64_eq_of_outward houtward hnear
    rw [hrounded, htruncated, Option.filter_some, Option.filter_some, hfits]
    cases htruncatedFits : fitsInt64 truncated with
    | false => exact .inl ⟨rfl, rfl⟩
    | true =>
      rw [htruncatedFits] at hfits
      exact .inr ⟨rounded, truncated, rfl, rfl, hfits, htruncatedFits, houtward⟩

/-- A text that one integer type changes is changed by both, from its arithmetic value. -/
theorem integers_of_changes {raw : Text}
    (h : TargetType.int.Changes raw ∨ TargetType.long.Changes raw) :
    TargetType.int.Changes raw ∧ TargetType.long.Changes raw ∧
      (Arithmetic.evaluate? raw).isSome = true ∧
      ∃ rounded truncated, TargetType.int.resolve raw = ofInt rounded ∧
        TargetType.long.resolve raw = ofInt truncated ∧
        fitsInt64 rounded = true ∧ fitsInt64 truncated = true ∧ Outward rounded truncated := by
  have hint : TargetType.int.computed? raw = _ := computed?_of_ne_boolean (by decide) raw
  have hlong : TargetType.long.computed? raw = _ := computed?_of_ne_boolean (by decide) raw
  rw [changes_iff, changes_iff] at h ⊢
  cases hvalue : Arithmetic.evaluate? raw with
  | none =>
    rw [hint, hlong, hvalue] at h
    simp at h
  | some number =>
    rw [hvalue, Option.bind_some] at hint hlong
    rcases formatNumber_integers number with
      ⟨hintNone, hlongNone⟩ | ⟨rounded, truncated, hintSome, hlongSome, hfits⟩
    · rw [hint, hlong, hintNone, hlongNone] at h
      simp at h
    · rw [hintSome] at hint
      rw [hlongSome] at hlong
      refine ⟨by rw [hint]; rfl, by rw [hlong]; rfl, rfl, rounded, truncated, ?_, ?_, hfits⟩
      · exact resolve_of_computed? hint
      · exact resolve_of_computed? hlong

/-! ## Truth values -/

/-- A truth value is computed of a text that has no arithmetic value. -/
theorem boolean_of_computed? {raw result : Text}
    (h : TargetType.boolean.computed? raw = some result) :
    Arithmetic.evaluate? raw = none ∧ ∃ value, result = booleanText value := by
  unfold computed? at h
  split at h
  · obtain ⟨number, -, hnumber⟩ := Option.bind_eq_some_iff.1 h
    simp [formatNumber] at hnumber
  · next hbears =>
    refine ⟨Arithmetic.evaluate?_eq_none_of_not_bearsOperator hbears, ?_⟩
    split at h
    · split at h
      · next value _ => exact ⟨value, (Option.some.inj h).symm⟩
      · simp at h
    · simp at h

/-- A text that is changed as a boolean becomes the spelling of one, and no other type changes
it. -/
theorem exists_booleanText_of_changes {raw : Text} (h : TargetType.boolean.Changes raw) :
    (∃ value, TargetType.boolean.resolve raw = booleanText value) ∧
      ∀ other, other ≠ TargetType.boolean → ¬ other.Changes raw := by
  rw [changes_iff] at h
  obtain ⟨result, hresult⟩ := Option.isSome_iff_exists.1 h
  obtain ⟨hnone, value, rfl⟩ := boolean_of_computed? hresult
  refine ⟨⟨value, resolve_of_computed? hresult⟩, ?_⟩
  intro other hne
  rw [changes_iff, computed?_of_ne_boolean hne, hnone]
  simp

/-! ## All types -/

/-- The types agree on what a raw text is. The text type changes none. The floating-point types
change the texts with an arithmetic value; the integer types change the same ones among these, to
integers that differ by the last rounding at most. A text that is changed to a truth value is
changed by no other type. -/
theorem changes_agree (raw : Text) :
    ¬ TargetType.string.Changes raw ∧
      (TargetType.double.Changes raw ↔ TargetType.float.Changes raw) ∧
      (TargetType.float.Changes raw ↔ (Arithmetic.evaluate? raw).isSome = true) ∧
      (TargetType.int.Changes raw ↔ TargetType.long.Changes raw) ∧
      (TargetType.int.Changes raw → TargetType.double.Changes raw) ∧
      (TargetType.boolean.Changes raw →
        (∃ value, TargetType.boolean.resolve raw = booleanText value) ∧
          ∀ other, other ≠ TargetType.boolean → ¬ other.Changes raw) ∧
      (TargetType.int.Changes raw →
        ∃ rounded truncated, TargetType.int.resolve raw = ofInt rounded ∧
          TargetType.long.resolve raw = ofInt truncated ∧
          fitsInt64 rounded = true ∧ fitsInt64 truncated = true ∧
          |rounded - truncated| ≤ 1 ∧ |truncated| ≤ |rounded| ∧ 0 ≤ rounded * truncated) := by
  refine ⟨?_, ?_, changes_float_iff raw, ?_, ?_, exists_booleanText_of_changes, ?_⟩
  · rw [changes_iff, computed?_of_ne_boolean (by decide)]
    cases Arithmetic.evaluate? raw <;> simp [formatNumber]
  · rw [changes_double_iff, changes_float_iff]
  · constructor
    · intro hint
      exact (integers_of_changes (.inl hint)).2.1
    · intro hlong
      exact (integers_of_changes (.inr hlong)).1
  · intro hint
    exact (changes_double_iff raw).2 (integers_of_changes (.inl hint)).2.2.1
  · intro hint
    obtain ⟨-, -, -, rounded, truncated, hrounded, htruncated, hfitsRounded, hfitsTruncated,
      houtward⟩ := integers_of_changes (.inl hint)
    exact ⟨rounded, truncated, hrounded, htruncated, hfitsRounded, hfitsTruncated,
      houtward.distance_le, houtward.abs_le, houtward.sameSign⟩

/-- A negative half is rounded away from zero and truncated towards it, and what a comparison is
changed to is no number. -/
theorem changes_agree_half :
    (TargetType.int.Changes "-5/2".toList ∧ TargetType.double.Changes "-5/2".toList ∧
      ∃ rounded truncated, "-3".toList = ofInt rounded ∧ "-2".toList = ofInt truncated ∧
        |rounded - truncated| ≤ 1 ∧ |truncated| ≤ |rounded| ∧ 0 ≤ rounded * truncated) ∧
      TargetType.boolean.Changes "10 < 9".toList ∧ ¬ TargetType.double.Changes "10 < 9".toList := by
  have hint : TargetType.int.resolve "-5/2".toList = "-3".toList := by decide +kernel
  have hlong : TargetType.long.resolve "-5/2".toList = "-2".toList := by decide +kernel
  have hchanges : TargetType.int.Changes "-5/2".toList := by
    unfold Changes
    rw [hint]
    decide
  have hboolean : TargetType.boolean.Changes "10 < 9".toList := by
    have hfalse : TargetType.boolean.resolve "10 < 9".toList = "false".toList := by decide +kernel
    unfold Changes
    rw [hfalse]
    decide
  obtain ⟨-, -, -, -, hdouble, -, hintegers⟩ := changes_agree "-5/2".toList
  obtain ⟨-, -, -, -, -, hothers, -⟩ := changes_agree "10 < 9".toList
  obtain ⟨rounded, truncated, hrounded, htruncated, -, -, houtward⟩ := hintegers hchanges
  rw [hint] at hrounded
  rw [hlong] at htruncated
  refine ⟨⟨hchanges, hdouble hchanges, rounded, truncated, hrounded, htruncated, houtward⟩,
    hboolean, ?_⟩
  exact (hothers hboolean).2 .double (by decide)

end TargetType

end TypedVars
