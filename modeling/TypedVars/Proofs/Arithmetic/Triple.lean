import TypedVars.Proofs.Arithmetic.Operand
import TypedVars.Proofs.Text.Spacing

/-!
# The language of triples

A text has an arithmetic value exactly when it is an operand, an operation and an operand with any
blanks between and around them, except that a `+` or `-` behind a blank must not stand directly in
front of a digit or a point, where it would be a sign. The value is that of the operation.
-/

set_option autoImplicit false

namespace TypedVars.Arithmetic

open Numeral (IsNumeral)
open Text (Blanks IsWord Spaced admitsSign isSign opensNumber opensWord splitOperators texts words)

/-! ## Signs -/

/-- At the front of a piece the symbols of sum and difference are signs of the number behind. -/
theorem isSign_symbol_nil_iff {operation : Operation} {rest : Text} :
    isSign operation.symbol [] rest = true ↔
      (operation = .add ∨ operation = .sub) ∧ opensNumber rest = true := by
  cases operation <;> simp [isSign, Operation.symbol, admitsSign]

/-- The symbol of an operation is one word. -/
theorem Operation.isWord_symbol (operation : Operation) : IsWord operation.symbol := by
  cases operation <;> decide

/-- The symbol of an operation is no numeral. -/
theorem not_isNumeral_symbol (operation : Operation) : ¬ IsNumeral operation.symbol := by
  rw [← Numeral.ofText?_isSome_iff]
  cases operation <;> decide

/-! ## The pieces of a triple -/

/-- An operand is a token of its own. -/
theorem IsOperand.texts_eq {text : Text} (h : IsOperand text) :
    texts Operation.symbols text = [text] :=
  Text.whole_of_unbroken h.isNumeral.isWord.1 (h.unbroken [])

/-- Directly behind an operand the symbol of an operation is a piece. -/
theorem IsOperand.texts_append {text : Text} (h : IsOperand text) (operation : Operation)
    (rest : Text) : texts Operation.symbols (text ++ (operation.symbol ++ rest)) =
      text :: operation.symbol :: texts Operation.symbols rest := by
  refine Text.texts_plain_operator h.isNumeral.isWord.1 (h.unbroken _) ?_
  have hsign : isSign operation.symbol text.reverse rest = false := by
    simp [isSign, admitsSign_reverse_of_isNumeral h.isNumeral]
  rw [operatorAt?_symbol_append, hsign]
  rfl

/-- At the front of a piece the symbol of an operation is a piece where it is no sign. -/
theorem texts_symbol_append {operation : Operation} {rest : Text}
    (h : isSign operation.symbol [] rest = false) :
    texts Operation.symbols (operation.symbol ++ rest) =
      operation.symbol :: texts Operation.symbols rest := by
  refine Text.texts_operator ?_
  rw [operatorAt?_symbol_append, h]
  rfl

/-- The symbol of an operation is a token of its own. -/
theorem Operation.texts_symbol (operation : Operation) :
    texts Operation.symbols operation.symbol = [operation.symbol] := by
  have hlone : isSign operation.symbol [] [] = false := by simp [isSign, opensNumber]
  have htexts := texts_symbol_append hlone
  rwa [List.append_nil, Text.texts_nil] at htexts

section Pieces

variable {before left gap behind right after : Text} {operation : Operation}

/-- The pieces up to the right operand, when those of its word up to the operation are known. The
operand stands in the same word, or behind blanks in the next one. -/
theorem tokens_operation (front : Text) (parts : List Text) (hgap : Blanks gap)
    (hbehind : Blanks behind) (hafter : Blanks after) (hright : IsOperand right)
    (hfront : IsWord (front ++ operation.symbol))
    (hloose : texts Operation.symbols (front ++ operation.symbol) = parts ++ [operation.symbol])
    (hglued : behind = [] → texts Operation.symbols (front ++ (operation.symbol ++ right)) =
      parts ++ [operation.symbol, right]) :
    tokens (gap ++ (front ++ (operation.symbol ++ (behind ++ (right ++ after))))) =
      parts ++ [operation.symbol, right] := by
  have hend : splitOperators Operation.symbols (words after) = [] :=
    Text.splitOperators_words_blanks hafter
  rw [tokens, ← List.append_assoc front]
  by_cases hnil : behind = []
  · have hword := hfront.append hright.isNumeral.isWord
    have htexts := hglued hnil
    rw [← List.append_assoc] at htexts
    rw [hnil, List.nil_append, ← List.append_assoc (front ++ operation.symbol),
      Text.splitOperators_words_append hgap hword hafter.opensWord_eq, htexts, hend,
      List.append_nil]
  · have hbreak : opensWord (behind ++ (right ++ after)) = false :=
      hbehind.opensWord_append (.inl hnil)
    rw [Text.splitOperators_words_append hgap hfront hbreak, hloose,
      Text.splitOperators_words_append hbehind hright.isNumeral.isWord hafter.opensWord_eq,
      hright.texts_eq, hend]
    simp

/-- An operand, an operation and an operand are three pieces, unless the operation is a sign. -/
theorem tokens_triple (hbefore : Blanks before) (hgap : Blanks gap) (hbehind : Blanks behind)
    (hafter : Blanks after) (hleft : IsOperand left) (hright : IsOperand right)
    (hsign : ¬ (gap ≠ [] ∧ behind = [] ∧ isSign operation.symbol [] right = true)) :
    tokens (before ++ (left ++ (gap ++ (operation.symbol ++ (behind ++ (right ++ after)))))) =
      [left, operation.symbol, right] := by
  by_cases hnil : gap = []
  · have hword := hleft.isNumeral.isWord.append operation.isWord_symbol
    have hloose := hleft.texts_append operation []
    rw [List.append_nil, Text.texts_nil] at hloose
    have hglued := hleft.texts_append operation right
    rw [hright.texts_eq] at hglued
    rw [hnil, List.nil_append]
    exact tokens_operation left [left] hbefore hbehind hafter hright hword hloose fun _ => hglued
  · have hglued (hbehindNil : behind = []) :
        texts Operation.symbols (operation.symbol ++ right) = [operation.symbol, right] := by
      have hnot : isSign operation.symbol [] right = false := by
        rw [Bool.eq_false_iff]
        intro hisSign
        exact hsign ⟨hnil, hbehindNil, hisSign⟩
      rw [texts_symbol_append hnot, hright.texts_eq]
    have hbreak : opensWord (gap ++ (operation.symbol ++ (behind ++ (right ++ after)))) = false :=
      hgap.opensWord_append (.inl hnil)
    have hrest : splitOperators Operation.symbols
        (words (gap ++ (operation.symbol ++ (behind ++ (right ++ after))))) =
          [operation.symbol, right] :=
      tokens_operation [] [] hgap hbehind hafter hright operation.isWord_symbol
        operation.texts_symbol hglued
    rw [tokens, Text.splitOperators_words_append hbefore hleft.isNumeral.isWord hbreak,
      hleft.texts_eq, hrest, List.singleton_append]

end Pieces

/-! ## Texts with a value -/

/-- A numeral that is a piece of a text is an operand. -/
theorem isOperand_of_mem_tokens {text token : Text} (h : token ∈ tokens text)
    (hnumeral : IsNumeral token) : IsOperand token := by
  obtain ⟨word, -, htoken⟩ := List.mem_flatMap.1 h
  obtain ⟨piece, hpiece, rfl⟩ := List.mem_map.1 htoken
  have hfits := (Text.division_pieces Operation.symbols word).fits piece hpiece
  refine ⟨hnumeral, ?_⟩
  intro c rest hcons hc
  cases piece with
  | operator symbol =>
    obtain ⟨operation, -, rfl⟩ := List.mem_map.1 hfits.2
    exact absurd hnumeral (not_isNumeral_symbol operation)
  | plain text =>
    obtain ⟨-, following, hunbroken⟩ := hfits
    obtain rfl : text = c :: rest := hcons
    obtain ⟨operation, hsymbol⟩ : ∃ operation : Operation, operation.symbol = [c] := by
      rcases hc with rfl | rfl
      · exact ⟨.add, rfl⟩
      · exact ⟨.sub, rfl⟩
    -- the first character was taken for a sign, and what stood behind it is part of the piece
    have hnone := hunbroken.1
    rw [← List.singleton_append, List.append_assoc, ← hsymbol, operatorAt?_symbol_append] at hnone
    have hsign : isSign operation.symbol [] (rest ++ following) = true := by simpa using hnone
    have hopens := (isSign_symbol_nil_iff.1 hsign).2
    cases rest with
    | nil =>
      rw [Text.Piece.text, ← hsymbol] at hnumeral
      exact absurd hnumeral (not_isNumeral_symbol operation)
    | cons d rest => exact hopens

/-- The texts that are an operand, an operation and an operand, with their values. -/
inductive Triple : Text → Binary64 → Prop
  | intro {before left gap behind right after : Text} {operation : Operation}
      {leftValue rightValue : Binary64} (hbefore : Blanks before) (hgap : Blanks gap)
      (hbehind : Blanks behind) (hafter : Blanks after)
      (hleft : Binary.ofText? Format.binary64 left = some leftValue)
      (hright : Binary.ofText? Format.binary64 right = some rightValue)
      (hleftSign : SignOpensNumber left) (hrightSign : SignOpensNumber right)
      (hoperation : ¬ ((operation = .add ∨ operation = .sub) ∧ gap ≠ [] ∧ behind = [] ∧
        opensNumber right = true)) :
      Triple (before ++ left ++ gap ++ operation.symbol ++ behind ++ right ++ after)
        (operation.apply leftValue rightValue)

/-- A text that is read as a number is a numeral. -/
theorem isNumeral_of_ofText? {text : Text} {value : Binary64}
    (h : Binary.ofText? Format.binary64 text = some value) : IsNumeral text :=
  Binary.ofText?_isSome_iff.1 (Option.isSome_iff_exists.2 ⟨value, h⟩)

/-- A sign in front of a number that opens without one belongs to its piece. -/
theorem texts_sign_append {operation : Operation} {right : Text}
    (hoperation : operation = .add ∨ operation = .sub) (hright : IsNumeral right)
    (hopens : opensNumber right = true) :
    texts Operation.symbols (operation.symbol ++ right) = [operation.symbol ++ right] := by
  obtain ⟨sign, body, rfl, hsign, hbody⟩ := hright
  have hnil : sign = [] := by
    rcases hsign with rfl | rfl | rfl
    · rfl
    · exact absurd hopens (by simp [opensNumber, Text.isDigitOrPoint, Text.isDigit])
    · exact absurd hopens (by simp [opensNumber, Text.isDigitOrPoint, Text.isDigit])
  subst hnil
  have hsymbol : Numeral.IsSign operation.symbol := by
    rcases hoperation with rfl | rfl
    · exact .inr (.inl rfl)
    · exact .inr (.inr rfl)
  refine Text.whole_of_unbroken (by simp [hbody.ne_nil]) ?_
  rw [Text.unbroken_append]
  exact ⟨unbroken_sign hsymbol rfl (opensNumber_append hopens []), unbroken_body hbody⟩

/-- A text has a value when its pieces are a numeral, the symbol of an operation and a numeral. -/
theorem evaluate?_eq_some_iff {text : Text} {value : Binary64} : evaluate? text = some value ↔
    ∃ left right operation leftValue rightValue,
      tokens text = [left, Operation.symbol operation, right] ∧
      Binary.ofText? Format.binary64 left = some leftValue ∧
      Binary.ofText? Format.binary64 right = some rightValue ∧
      operation.apply leftValue rightValue = value := by
  constructor
  · intro h
    unfold evaluate? at h
    split at h
    · next left symbol right htokens =>
      obtain ⟨leftValue, hleft, h⟩ := Option.bind_eq_some_iff.1 h
      obtain ⟨operation, hoperation, h⟩ := Option.bind_eq_some_iff.1 h
      obtain ⟨rightValue, hright, h⟩ := Option.bind_eq_some_iff.1 h
      have hsymbol : operation.symbol = symbol := by simpa using List.find?_some hoperation
      rw [← hsymbol] at htokens
      exact ⟨left, right, operation, leftValue, rightValue, htokens, hleft, hright,
        Option.some.inj h⟩
    · simp at h
  · rintro ⟨left, right, operation, leftValue, rightValue, htokens, hleft, hright, rfl⟩
    simp [evaluate?, htokens, hleft, hright, Operation.ofSymbol?_symbol]

/-- The pieces of a text with a value show it to be a triple. -/
theorem triple_of_evaluate? {text : Text} {value : Binary64} (h : evaluate? text = some value) :
    Triple text value := by
  obtain ⟨left, right, operation, leftValue, rightValue, htokens, hleft, hright, rfl⟩ :=
    evaluate?_eq_some_iff.1 h
  have hleftMem : left ∈ tokens text := by simp [htokens]
  have hrightMem : right ∈ tokens text := by simp [htokens]
  have hleftOperand := isOperand_of_mem_tokens hleftMem (isNumeral_of_ofText? hleft)
  have hrightOperand := isOperand_of_mem_tokens hrightMem (isNumeral_of_ofText? hright)
  have hspaced : Spaced (tokens text) text :=
    Text.spaced_splitOperators_words Operation.symbols text
  rw [htokens] at hspaced
  obtain ⟨before, _, rfl, hbefore, gap, _, rfl, hgap, behind, after, rfl, hbehind, hafter⟩ :=
    hspaced
  have hsign : ¬ ((operation = .add ∨ operation = .sub) ∧ gap ≠ [] ∧ behind = [] ∧
      opensNumber right = true) := by
    rintro ⟨hoperation, hne, rfl, hopens⟩
    -- the operation and the right operand would be one piece
    have hbreak : opensWord (gap ++ (operation.symbol ++ ([] ++ (right ++ after)))) = false :=
      hgap.opensWord_append (.inl hne)
    have hword := operation.isWord_symbol.append hrightOperand.isNumeral.isWord
    rw [tokens, Text.splitOperators_words_append hbefore hleftOperand.isNumeral.isWord hbreak,
      List.nil_append, ← List.append_assoc operation.symbol,
      Text.splitOperators_words_append hgap hword hafter.opensWord_eq,
      texts_sign_append hoperation hrightOperand.isNumeral hopens, hleftOperand.texts_eq,
      Text.splitOperators_words_blanks hafter] at htokens
    simp at htokens
  have htriple := Triple.intro hbefore hgap hbehind hafter hleft hright
    hleftOperand.signOpensNumber hrightOperand.signOpensNumber hsign
  simpa only [List.append_assoc] using htriple

/-- A text in which the symbol of an operation occurs bears an operator. -/
theorem bearsOperator_of_occurs (operation : Operation) {text : Text}
    (h : operation.symbol <:+: text) : bearsOperator text = true := by
  have hmem : operation.symbol ∈ Operation.symbols := by
    cases operation <;> decide
  apply List.any_eq_true.2
  exact ⟨operation.symbol, hmem, (Text.occursIn_iff _ _).2 h⟩

/-- A text with a value bears the operator of its triple. -/
theorem evaluate?_eq_none_of_not_bearsOperator {text : Text} (h : ¬ bearsOperator text = true) :
    evaluate? text = none := by
  rw [Option.eq_none_iff_forall_ne_some]
  intro value hvalue
  apply h
  cases triple_of_evaluate? hvalue with
  | @intro before left gap behind right after operation =>
    apply bearsOperator_of_occurs operation
    exact ⟨before ++ left ++ gap, behind ++ right ++ after, by simp⟩

/-- A triple has its value. -/
theorem Triple.evaluate?_eq {text : Text} {value : Binary64} (h : Triple text value) :
    evaluate? text = some value := by
  cases h with
  | @intro before left gap behind right after operation leftValue rightValue hbefore hgap hbehind
      hafter hleft hright hleftSign hrightSign hoperation =>
    have hleftOperand : IsOperand left := ⟨isNumeral_of_ofText? hleft, hleftSign⟩
    have hrightOperand : IsOperand right := ⟨isNumeral_of_ofText? hright, hrightSign⟩
    have hsign : ¬ (gap ≠ [] ∧ behind = [] ∧ isSign operation.symbol [] right = true) := by
      rintro ⟨hne, hnil, hisSign⟩
      obtain ⟨hsymbol, hopens⟩ := isSign_symbol_nil_iff.1 hisSign
      exact hoperation ⟨hsymbol, hne, hnil, hopens⟩
    have htokens := tokens_triple hbefore hgap hbehind hafter hleftOperand hrightOperand hsign
    apply evaluate?_eq_some_iff.2
    refine ⟨left, right, operation, leftValue, rightValue, ?_, hleft, hright, rfl⟩
    simpa only [List.append_assoc] using htokens

/-- A text has a value exactly when it is a triple with that value, and none exactly when it is no
triple. -/
theorem evaluate?_iff_triple (text : Text) :
    (∀ value, evaluate? text = some value ↔ Triple text value) ∧
      (evaluate? text = none ↔ ∀ value, ¬ Triple text value) := by
  have hiff (value : Binary64) : evaluate? text = some value ↔ Triple text value :=
    ⟨triple_of_evaluate?, Triple.evaluate?_eq⟩
  refine ⟨hiff, ?_⟩
  rw [Option.eq_none_iff_forall_ne_some]
  apply forall_congr'
  intro value
  exact not_congr (hiff value)

end TypedVars.Arithmetic
