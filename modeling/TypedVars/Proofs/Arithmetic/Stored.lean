import TypedVars.Proofs.Arithmetic.Triple
import TypedVars.Proofs.Number.Written
import TypedVars.TargetType

/-!
# Stored numbers as operands

A number that a variable stores is written as an operand, so that it can stand on either side of an
operation again. The one exception is negative infinity: its minus stands in front of a letter, is
taken for an operation, and leaves a text of more than three pieces.
-/

set_option autoImplicit false

namespace TypedVars.Arithmetic

open Numeral (IsBody IsMantissa IsNumeral)
open Text (Blanks IsWord splitOperators texts words)

/-- The written form of negative infinity. -/
def negativeInfinity : Text := ['-', 'i', 'n', 'f']

/-! ## Written numbers -/

/-- A printed integer can stand as an operand. -/
theorem isOperand_ofInt (n : Int) : IsOperand (Digits.ofInt n) := by
  obtain ⟨sign, digits, htext, hsign, hne, hdigits⟩ := Digits.exists_digits_ofInt n
  have hmantissa : IsMantissa digits := .whole hne hdigits
  rw [htext]
  exact isOperand_append hsign hmantissa.isBody (.inr hmantissa.opensNumber)

/-- A printed number can stand as an operand unless it is negative infinity. -/
theorem isOperand_or_eq_text {F : Format} (layout : Layout) (number : Binary F) :
    IsOperand (layout.text number) ∨ layout.text number = negativeInfinity := by
  obtain ⟨sign, body, htext, hsign, hbody, hkind⟩ := layout.exists_text number
  rcases or_assoc.2 hkind with hopens | hinfinity
  · rw [htext]
    exact .inl (isOperand_append hsign hbody hopens)
  · exact .inr hinfinity

/-- A stored result can stand as an operand unless it is negative infinity. -/
theorem isOperand_or_eq_of_formatNumber {type : TargetType} {number : Binary64} {result : Text}
    (h : type.formatNumber number = some result) :
    IsOperand result ∨ result = negativeInfinity := by
  cases type with
  | boolean => simp [TargetType.formatNumber] at h
  | string => simp [TargetType.formatNumber] at h
  | int =>
    obtain ⟨n, -, rfl⟩ := Option.map_eq_some_iff.1 h
    exact .inl (isOperand_ofInt n)
  | long =>
    obtain ⟨n, -, rfl⟩ := Option.map_eq_some_iff.1 h
    exact .inl (isOperand_ofInt n)
  | float =>
    obtain rfl : Layout.stored.text (number.convert Format.binary32) = result := Option.some.inj h
    exact isOperand_or_eq_text _ _
  | double =>
    obtain rfl : Layout.stored.text number = result := Option.some.inj h
    exact isOperand_or_eq_text _ _

/-- The spelling of infinity can stand as an operand. -/
theorem isOperand_infinity : IsOperand ['i', 'n', 'f'] := by
  have hbody : IsBody ['i', 'n', 'f'] := .word (by decide)
  exact isOperand_append (.inl rfl) hbody (.inl rfl)

/-- The minus of negative infinity stands in front of no digit, so it is a piece of its own. -/
theorem texts_negativeInfinity :
    texts Operation.symbols negativeInfinity = [['-'], ['i', 'n', 'f']] := by
  have hnot : Text.isSign Operation.sub.symbol [] ['i', 'n', 'f'] = false := by decide
  have hoperation := texts_symbol_append hnot
  rwa [isOperand_infinity.texts_eq] at hoperation

/-! ## Operations with single spaces -/

/-- Two operands around an operation, with single spaces. -/
def spaced (left : Text) (operation : Operation) (right : Text) : Text :=
  left ++ ' ' :: operation.symbol ++ ' ' :: right

section Spaced

variable {left right : Text} (operation : Operation)

/-- The pieces of a spaced operation are those of its words. -/
theorem tokens_spaced (hleft : IsWord left) (hright : IsWord right) :
    tokens (spaced left operation right) =
      texts Operation.symbols left ++ operation.symbol :: texts Operation.symbols right := by
  have hnone : Blanks [] := by simp [Blanks]
  have hspace : Blanks [' '] := by simp [Blanks, Text.isBlank]
  have hshape : spaced left operation right =
      [] ++ (left ++ ([' '] ++ (operation.symbol ++ ([' '] ++ (right ++ []))))) := by
    simp [spaced]
  rw [tokens, hshape, Text.splitOperators_words_append hnone hleft rfl,
    Text.splitOperators_words_append hspace operation.isWord_symbol rfl,
    Text.splitOperators_words_append hspace hright rfl, operation.texts_symbol]
  simp [words, splitOperators]

/-- Two operands around an operation are evaluated by the operation. -/
theorem evaluate?_spaced {leftValue rightValue : Binary64} (hleft : IsOperand left)
    (hright : IsOperand right) (hleftValue : Binary.ofText? Format.binary64 left = some leftValue)
    (hrightValue : Binary.ofText? Format.binary64 right = some rightValue) :
    evaluate? (spaced left operation right) = some (operation.apply leftValue rightValue) := by
  apply evaluate?_eq_some_iff.2
  refine ⟨left, right, operation, leftValue, rightValue, ?_, hleftValue, hrightValue, rfl⟩
  rw [tokens_spaced operation hleft.isNumeral.isWord hright.isNumeral.isWord, hleft.texts_eq,
    hright.texts_eq]
  rfl

/-- A text that is not of three tokens has no value. -/
theorem evaluate?_eq_none_of_length {text : Text} (h : (tokens text).length ≠ 3) :
    evaluate? text = none := by
  rw [Option.eq_none_iff_forall_ne_some]
  intro value hvalue
  obtain ⟨left, right, operation, -, -, htokens, -⟩ := evaluate?_eq_some_iff.1 hvalue
  rw [htokens] at h
  exact h rfl

/-- The spelling of negative infinity is one word. -/
theorem isWord_negativeInfinity : IsWord negativeInfinity := by
  decide

/-- A word is split into at least one token. -/
theorem length_texts_pos {text : Text} (h : IsWord text) :
    0 < (texts Operation.symbols text).length := by
  rw [List.length_pos_iff]
  intro hnil
  have hflatten : (texts Operation.symbols text).flatten = text := Text.flatten_texts text
  rw [hnil] at hflatten
  exact h.1 hflatten.symm

/-- An operation on negative infinity has no value, as its sign is taken for an operation. -/
theorem evaluate?_spaced_negativeInfinity (hleft : IsWord left) (hright : IsWord right)
    (h : left = negativeInfinity ∨ right = negativeInfinity) :
    evaluate? (spaced left operation right) = none := by
  apply evaluate?_eq_none_of_length
  have hleftPos := length_texts_pos hleft
  have hrightPos := length_texts_pos hright
  -- negative infinity brings two pieces, the operation and the other side at least one each
  rw [tokens_spaced operation hleft hright, List.length_append, List.length_cons]
  rcases h with rfl | rfl
  · rw [texts_negativeInfinity, List.length_cons, List.length_cons]
    omega
  · rw [texts_negativeInfinity, List.length_cons, List.length_cons]
    omega

end Spaced

/-- The spelling of negative infinity is a numeral. -/
theorem isNumeral_negativeInfinity : IsNumeral negativeInfinity :=
  ⟨['-'], ['i', 'n', 'f'], rfl, .inr (.inr rfl), .word (by decide)⟩

/-- A stored result is a numeral. -/
theorem isNumeral_of_formatNumber {type : TargetType} {number : Binary64} {result : Text}
    (h : type.formatNumber number = some result) : IsNumeral result := by
  rcases isOperand_or_eq_of_formatNumber h with hoperand | rfl
  · exact hoperand.isNumeral
  · exact isNumeral_negativeInfinity

/-- Two stored numbers can be read again, and an operation on them has the value that it has on
what is read, except that it has none when one of them is stored as negative infinity. -/
theorem evaluate?_spaced_formatNumber {type other : TargetType} {number otherNumber : Binary64}
    {left right : Text} (hleft : type.formatNumber number = some left)
    (hright : other.formatNumber otherNumber = some right) (operation : Operation) :
    ∃ leftValue rightValue, Binary.ofText? Format.binary64 left = some leftValue ∧
      Binary.ofText? Format.binary64 right = some rightValue ∧
      evaluate? (spaced left operation right) =
        if left = negativeInfinity ∨ right = negativeInfinity then none
        else some (operation.apply leftValue rightValue) := by
  have hleftNumeral := isNumeral_of_formatNumber hleft
  have hrightNumeral := isNumeral_of_formatNumber hright
  obtain ⟨leftValue, hleftValue⟩ :=
    Option.isSome_iff_exists.1 ((Binary.ofText?_isSome_iff (F := Format.binary64)).2 hleftNumeral)
  obtain ⟨rightValue, hrightValue⟩ :=
    Option.isSome_iff_exists.1 ((Binary.ofText?_isSome_iff (F := Format.binary64)).2 hrightNumeral)
  refine ⟨leftValue, rightValue, hleftValue, hrightValue, ?_⟩
  by_cases h : left = negativeInfinity ∨ right = negativeInfinity
  · rw [if_pos h, evaluate?_spaced_negativeInfinity operation hleftNumeral.isWord
      hrightNumeral.isWord h]
  · obtain ⟨hleftFinite, hrightFinite⟩ := not_or.1 h
    have hleftOperand := (isOperand_or_eq_of_formatNumber hleft).resolve_right hleftFinite
    have hrightOperand := (isOperand_or_eq_of_formatNumber hright).resolve_right hrightFinite
    rw [if_neg h, evaluate?_spaced operation hleftOperand hrightOperand hleftValue hrightValue]

/-- A quotient that is stored rounded, taken from a negative power of ten. -/
theorem evaluate?_spaced_formatNumber_powers :
    ∃ leftValue rightValue,
      TargetType.double.formatNumber (Binary.ofBits 0xBE7AD7F29ABCAF48) = some "-1e-7".toList ∧
      TargetType.int.formatNumber (Binary.ofBits 0x4004000000000000) = some "3".toList ∧
      Binary.ofText? Format.binary64 "-1e-7".toList = some leftValue ∧
      Binary.ofText? Format.binary64 "3".toList = some rightValue ∧
      evaluate? "-1e-7 - 3".toList = some (Operation.sub.apply leftValue rightValue) := by
  have hleft : TargetType.double.formatNumber (Binary.ofBits 0xBE7AD7F29ABCAF48) =
      some "-1e-7".toList := by decide +kernel
  have hright : TargetType.int.formatNumber (Binary.ofBits 0x4004000000000000) =
      some "3".toList := by decide +kernel
  obtain ⟨leftValue, rightValue, hleftValue, hrightValue, hvalue⟩ :=
    evaluate?_spaced_formatNumber hleft hright .sub
  have hfinite : ¬ ("-1e-7".toList = negativeInfinity ∨ "3".toList = negativeInfinity) := by
    decide
  rw [if_neg hfinite] at hvalue
  exact ⟨leftValue, rightValue, hleft, hright, hleftValue, hrightValue, hvalue⟩

/-- Not every stored number can be an operand again: negative infinity and one have no sum. -/
theorem not_forall_evaluate?_spaced_formatNumber :
    ¬ ∀ (type other : TargetType) (number otherNumber : Binary64) (left right : Text)
        (operation : Operation), type.formatNumber number = some left →
        other.formatNumber otherNumber = some right →
        ∃ leftValue rightValue, Binary.ofText? Format.binary64 left = some leftValue ∧
          Binary.ofText? Format.binary64 right = some rightValue ∧
          evaluate? (spaced left operation right) = some (operation.apply leftValue rightValue) := by
  intro h
  have hone : TargetType.double.formatNumber (Binary.ofBits 0x3FF0000000000000) =
      some "1.0".toList := by decide +kernel
  obtain ⟨leftValue, rightValue, -, -, hvalue⟩ :=
    h .double .double (.infinity true) (Binary.ofBits 0x3FF0000000000000) negativeInfinity
      "1.0".toList .add rfl hone
  have hnone : evaluate? (spaced negativeInfinity .add "1.0".toList) = none := by decide +kernel
  rw [hnone] at hvalue
  simp at hvalue

end TypedVars.Arithmetic
