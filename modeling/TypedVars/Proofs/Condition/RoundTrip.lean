import TypedVars.Proofs.Condition.Chain
import TypedVars.Proofs.Number.Written
import TypedVars.Proofs.Text.Division

/-!
# Reading written conditions

The written form of a condition that was read from some text is read back as that condition. What
can be read are the expressions that nest to the right and of which every string is a token that is
divided no further and stands for nothing else; each of them is read from its own written form.
-/

set_option autoImplicit false

namespace TypedVars.Condition

open Numeral (IsNumeral)
open Text (IsWord Unbroken Whole isBlank)

/-! ## Symbols in a text -/

/-- The characters that symbols of operators consist of. -/
def operatorCharacters : List Char := ['&', '|', '=', '!', '<', '>']

/-- The symbol of an operator starts with a character of operators. -/
theorem Operator.exists_symbol_eq_cons (operator : Operator) :
    ∃ c rest, operator.symbol = c :: rest ∧ c ∈ operatorCharacters := by
  rcases operator with which | which <;> cases which <;> exact ⟨_, _, rfl, by decide⟩

/-- No symbol of an operator occurs in a text. -/
def SymbolFree (text : Text) : Prop := ∀ symbol ∈ Operator.symbols, ¬ symbol <:+: text

/-- The texts that are free of symbols are those that are not taken for conditions. -/
theorem bearsOperator_eq_false_iff {text : Text} :
    bearsOperator text = false ↔ SymbolFree text := by
  simp only [bearsOperator, List.any_eq_false, Text.occursIn_iff, SymbolFree]

instance (text : Text) : Decidable (SymbolFree text) :=
  decidable_of_iff _ bearsOperator_eq_false_iff

/-- No character of a numeral is one of operators. -/
theorem not_mem_operatorCharacters_of_isNumeral {text : Text} (h : IsNumeral text) {c : Char}
    (hc : c ∈ text) : c ∉ operatorCharacters := by
  intro hcharacter
  have hnumeral := h.isNumeralCharacter hc
  simp only [operatorCharacters, List.mem_cons, List.not_mem_nil, or_false] at hcharacter
  rcases hcharacter with rfl | rfl | rfl | rfl | rfl | rfl <;> exact absurd hnumeral (by decide)

/-- A numeral is free of symbols, having none of their characters. -/
theorem symbolFree_of_isNumeral {text : Text} (h : IsNumeral text) : SymbolFree text := by
  intro symbol hmem hinside
  obtain ⟨operator, -, rfl⟩ := List.mem_map.1 hmem
  obtain ⟨c, rest, hsymbol, hcharacter⟩ := operator.exists_symbol_eq_cons
  have hc : c ∈ text := hinside.subset (hsymbol ▸ List.mem_cons_self)
  exact not_mem_operatorCharacters_of_isNumeral h hc hcharacter

namespace Operator

/-- The symbol of an operator is one word. -/
theorem isWord_symbol (operator : Operator) : IsWord operator.symbol := by
  rcases operator with which | which <;> cases which <;> decide

/-- The symbol of a condition operator is never a sign. -/
theorem isSign_symbol (operator : Operator) (reversed after : Text) :
    Text.isSign operator.symbol reversed after = false := by
  rcases operator with which | which <;> cases which <;> rfl

/-- The symbol of an operator is found as that operator. -/
theorem operatorAt?_symbol (operator : Operator) :
    Text.operatorAt? symbols [] operator.symbol = some operator.symbol := by
  rcases operator with which | which <;> cases which <;> decide

/-- Some operator stands wherever a symbol opens the rest of a token. -/
theorem operatorAt?_ne_none {reversed text symbol : Text} (hmem : symbol ∈ symbols)
    (hopens : symbol <+: text) : Text.operatorAt? symbols reversed text ≠ none := by
  obtain ⟨operator, -, rfl⟩ := List.mem_map.1 hmem
  have hfirst : (Text.firstOperator? symbols text).isSome = true := by
    rw [Text.firstOperator?, List.find?_isSome]
    refine ⟨operator.symbol, hmem, ?_⟩
    simp [(isWord_symbol operator).1, List.isPrefixOf_iff_prefix.2 hopens]
  obtain ⟨found, hfound⟩ := Option.isSome_iff_exists.1 hfirst
  obtain ⟨other, -, rfl⟩ := List.mem_map.1 (List.mem_of_find?_eq_some hfound)
  rw [Text.operatorAt?, hfound, Option.filter_some, isSign_symbol]
  simp

end Operator

/-- A text that no operator breaks is free of symbols. -/
theorem symbolFree_of_unbroken {reversed text following : Text}
    (h : Unbroken Operator.symbols reversed text following) : SymbolFree text := by
  rintro symbol hmem ⟨before, after, rfl⟩
  obtain ⟨operator, -, rfl⟩ := List.mem_map.1 hmem
  rw [List.append_assoc, Text.unbroken_append] at h
  obtain ⟨-, hsymbol⟩ := h
  obtain ⟨c, rest, hcons⟩ := List.exists_cons_of_ne_nil (Operator.isWord_symbol operator).1
  rw [hcons] at hmem hsymbol
  refine Operator.operatorAt?_ne_none hmem ?_ hsymbol.1
  exact ⟨after ++ following, by simp⟩

/-- No operator breaks a text that is free of symbols. -/
theorem unbroken_of_symbolFree {reversed text : Text} (h : SymbolFree text) :
    Unbroken Operator.symbols reversed text [] := by
  apply Text.unbroken_of_forall_not_prefix
  intro symbol hmem suffix hsuffix _ _ hopens
  rw [List.append_nil] at hopens
  exact h symbol hmem (hopens.isInfix.trans hsuffix.isInfix)

/-! ## Tokens -/

/-- A text that stays one token: the symbol of an operator, or a word that is free of symbols. -/
def IsToken (text : Text) : Prop :=
  IsWord text ∧ (text ∈ Operator.symbols ∨ SymbolFree text)

/-- A token stays whole when it is divided. -/
theorem IsToken.whole {text : Text} (h : IsToken text) : Whole Operator.symbols text := by
  obtain ⟨hword, hsymbol | hfree⟩ := h
  · obtain ⟨operator, -, rfl⟩ := List.mem_map.1 hsymbol
    exact Text.whole_of_operatorAt? operator.operatorAt?_symbol
  · exact Text.whole_of_unbroken hword.1 (unbroken_of_symbolFree hfree)

/-- The tokens of a text are tokens by themselves. -/
theorem isToken_of_mem_tokens {text token : Text} (h : token ∈ tokens text) : IsToken token := by
  obtain ⟨word, hword, htoken⟩ := List.mem_flatMap.1 h
  obtain ⟨piece, hpiece, rfl⟩ := List.mem_map.1 htoken
  have hdivision := Text.division_pieces Operator.symbols word
  have hblank : ∀ c ∈ piece.text, isBlank c = false := by
    intro c hc
    refine (Text.isWord_of_mem_words hword).2 c ?_
    rw [← hdivision.flatMap_text]
    exact List.mem_flatMap.2 ⟨piece, hpiece, hc⟩
  have hfits := hdivision.fits piece hpiece
  cases piece with
  | plain text =>
    obtain ⟨hne, following, hunbroken⟩ := hfits
    exact ⟨⟨hne, hblank⟩, .inr (symbolFree_of_unbroken hunbroken)⟩
  | operator symbol =>
    obtain ⟨hne, hmem⟩ := hfits
    exact ⟨⟨hne, hblank⟩, .inl hmem⟩

/-- Tokens with single spaces between them are the tokens of the joined text. -/
theorem tokens_joinWith_space {all : List Text} (h : ∀ token ∈ all, IsToken token) :
    tokens (Text.joinWith [' '] all) = all := by
  rw [tokens, Text.words_joinWith_space fun token htoken => (h token htoken).1]
  exact Text.splitOperators_of_whole fun token htoken => (h token htoken).whole

/-! ## Literals -/

/-- A token that stands for itself: neither a truth value nor an integer. -/
structure IsStringToken (text : Text) : Prop where
  /-- The text has characters, and none of them is a blank. -/
  isWord : IsWord text
  /-- The text is not the word for the true value. -/
  ne_true : text ≠ booleanText true
  /-- The text is not the word for the false value. -/
  ne_false : text ≠ booleanText false
  /-- The text is no numeral of an integer in range. -/
  not_integer : int64OfText? text = none
  /-- The text is the symbol of an operator, or no symbol occurs in it. -/
  symbol_or_free : text ∈ Operator.symbols ∨ SymbolFree text

namespace Literal

/-- A literal that can be read. Truth values and integers always can. -/
def Readable : Literal → Prop
  | boolean _ => True
  | integer _ => True
  | string text => IsStringToken text

/-- The literal of a token can be read back. -/
theorem readable_ofToken {token : Text} (h : IsToken token) : (ofToken token).Readable := by
  unfold ofToken
  split
  · trivial
  next htrue =>
  split
  · trivial
  next hfalse =>
  split
  · trivial
  · next hinteger => exact ⟨h.1, htrue, hfalse, hinteger, h.2⟩

/-- The spelling of a boolean is no integer. -/
theorem int64OfText?_booleanText (truth : Bool) : int64OfText? (booleanText truth) = none := by
  cases truth <;> decide

/-- A printed integer is no spelling of a boolean. -/
theorem ofInt_ne_booleanText (value : Int64) (truth : Bool) :
    Digits.ofInt value.toInt ≠ booleanText truth := by
  intro h
  have hread := int64OfText?_ofInt value
  rw [h, int64OfText?_booleanText] at hread
  exact absurd hread (by simp)

/-- A literal that can be read is read back from its written form. -/
theorem ofToken_text {literal : Literal} (h : literal.Readable) :
    ofToken literal.text = literal := by
  cases literal with
  | boolean value => cases value <;> rfl
  | integer value =>
    rw [text, ofToken, if_neg (ofInt_ne_booleanText value true),
      if_neg (ofInt_ne_booleanText value false), int64OfText?_ofInt]
  | string value => rw [text, ofToken, if_neg h.ne_true, if_neg h.ne_false, h.not_integer]

/-- A printed integer is a token. -/
theorem isToken_ofInt (n : Int) : IsToken (Digits.ofInt n) := by
  have hnumeral := Digits.isNumeral_ofInt n
  exact ⟨hnumeral.isWord, .inr (symbolFree_of_isNumeral hnumeral)⟩

/-- A readable literal is printed as a token. -/
theorem isToken_text {literal : Literal} (h : literal.Readable) : IsToken literal.text := by
  cases literal with
  | boolean value =>
    cases value <;> exact ⟨by decide, .inr (by decide)⟩
  | integer value => exact isToken_ofInt value.toInt
  | string value => exact ⟨h.isWord, h.symbol_or_free⟩

end Literal

/-! ## Reading chains -/

namespace Chain

/-- The pieces of a chain of literals that can be read are tokens. -/
theorem isToken_of_mem_pieces {chain : Chain} (h : ∀ literal ∈ chain.literals, literal.Readable) :
    ∀ piece ∈ chain.pieces, IsToken piece := by
  induction chain with
  | single literal =>
    have hliteral := Literal.isToken_text (h literal (by simp [literals]))
    exact List.forall_mem_singleton.2 hliteral
  | link literal operator rest ih =>
    have hliteral := Literal.isToken_text (h literal (by simp [literals]))
    have hsymbol : IsToken operator.symbol :=
      ⟨operator.isWord_symbol, .inl (List.mem_map_of_mem operator.mem_all)⟩
    have hrest := ih fun other hother => h other (by simp [literals, hother])
    exact List.forall_mem_cons.2 ⟨hliteral, List.forall_mem_cons.2 ⟨hsymbol, hrest⟩⟩

/-- The pieces of a chain of literals that can be read are read as that chain, to the end. -/
theorem ofTokens_pieces {chain : Chain} (h : ∀ literal ∈ chain.literals, literal.Readable) :
    Expression.ofTokens chain.pieces = (chain.toExpression, []) := by
  induction chain with
  | single literal =>
    have hliteral := Literal.ofToken_text (h literal (by simp [literals]))
    rw [pieces, Expression.ofTokens, hliteral, toExpression]
  | link literal operator rest ih =>
    have hliteral := Literal.ofToken_text (h literal (by simp [literals]))
    have hrest := ih fun other hother => h other (by simp [literals, hother])
    rw [pieces, Expression.ofTokens, Operator.ofSymbol?_symbol]
    simp only [hliteral, hrest, toExpression]

/-- A printed chain of readable literals is parsed as its tree. -/
theorem parse_text {chain : Chain} (h : ∀ literal ∈ chain.literals, literal.Readable) :
    parse chain.text = chain.toExpression := by
  rw [parse, text, tokens_joinWith_space (isToken_of_mem_pieces h), ofTokens_pieces h]

end Chain

/-- Reading tokens classifies some of them, and may add the literal `false`. -/
theorem Expression.mem_literals_ofTokens {all : List Text} {literal : Literal}
    (h : literal ∈ (Expression.ofTokens all).1.literals) :
    literal = .boolean false ∨ ∃ token ∈ all, literal = .ofToken token := by
  fun_induction Expression.ofTokens all with
  | case1 => exact .inl (by simpa [literals] using h)
  | case2 token => exact .inr ⟨token, by simp, by simpa [literals] using h⟩
  | case3 token next after operator _ right remaining hafter ih =>
    rw [hafter] at ih
    rcases List.mem_cons.1 h with rfl | h
    · exact .inr ⟨token, by simp, rfl⟩
    · obtain hfalse | ⟨other, hother, rfl⟩ := ih h
      · exact .inl hfalse
      · exact .inr ⟨other, by simp [hother], rfl⟩
  | case4 token next after _ => exact .inr ⟨token, by simp, by simpa [literals] using h⟩

/-- The literals of a parsed text can be read back. -/
theorem readable_of_mem_literals_parse {text : Text} {literal : Literal}
    (h : literal ∈ (parse text).literals) : literal.Readable := by
  obtain rfl | ⟨token, htoken, rfl⟩ := Expression.mem_literals_ofTokens h
  · trivial
  · exact Literal.readable_ofToken (isToken_of_mem_tokens htoken)

/-- A parsed text is nested to the right. -/
theorem rightNested_parse (text : Text) : (parse text).RightNested :=
  (parse text).rightNested_iff.2 ⟨_, (parse_eq_toExpression text).symm⟩

/-- An expression that nests to the right and of which the literals can be read is read back from
its written form. -/
theorem parse_text_of_rightNested {expression : Expression} (hnested : expression.RightNested)
    (hreadable : ∀ literal ∈ expression.literals, literal.Readable) :
    parse expression.text = expression := by
  obtain ⟨chain, rfl⟩ := expression.rightNested_iff.1 hnested
  rw [Expression.literals_toExpression] at hreadable
  rw [Chain.text_toExpression, Chain.parse_text hreadable]

/-- A condition in a text is read back from its written form, and the conditions in texts are the
expressions that nest to the right and of which every string is a token that stands for itself. -/
theorem parse_text_parse_and_range :
    (∀ text, parse (parse text).text = parse text) ∧
      ∀ expression, (∃ text, parse text = expression) ↔
        expression.RightNested ∧
          ∀ string, .string string ∈ expression.literals → IsStringToken string := by
  constructor
  · intro text
    apply parse_text_of_rightNested (rightNested_parse text)
    intro literal hliteral
    exact readable_of_mem_literals_parse hliteral
  intro expression
  constructor
  · rintro ⟨text, rfl⟩
    refine ⟨rightNested_parse text, ?_⟩
    intro string hstring
    exact readable_of_mem_literals_parse hstring
  · rintro ⟨hnested, hstrings⟩
    have hreadable : ∀ literal ∈ expression.literals, literal.Readable := by
      intro literal hliteral
      cases literal with
      | boolean value => trivial
      | integer value => trivial
      | string value => exact hstrings value hliteral
    exact ⟨expression.text, parse_text_of_rightNested hnested hreadable⟩

end TypedVars.Condition
