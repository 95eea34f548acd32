import TypedVars.Arithmetic
import TypedVars.Proofs.Number.Numeral
import TypedVars.Proofs.Text.Division

/-!
# Operands

The characters `+` and `-` are operations, signs of numbers or signs of exponents. An operand is a
numeral of which the leading sign, if it has one, is followed by a digit or a point. Wherever an
operand opens a piece, all of it belongs to that piece, and a `+` or `-` behind it is an operation;
no other numeral is a piece.
-/

set_option autoImplicit false

namespace TypedVars.Arithmetic

open Numeral (IsNumeral IsSign IsBody IsExponent IsMantissa IsLetter)
open Text (Unbroken admitsSign isDigitOrPoint isSign opensNumber operatorAt?)

/-! ## Operations at a position -/

/-- The symbols of operations are the four signs. -/
theorem singleton_mem_symbols {c : Char} :
    [c] ∈ Operation.symbols ↔ c = '+' ∨ c = '-' ∨ c = '*' ∨ c = '/' := by
  simp [Operation.symbols, Operation.all, Operation.symbol]

/-- The symbol of an operation stands as an operator where it is no sign. -/
theorem operatorAt?_symbol_append (operation : Operation) (reversed rest : Text) :
    operatorAt? Operation.symbols reversed (operation.symbol ++ rest) =
      if isSign operation.symbol reversed rest then none else some operation.symbol := by
  have hfirst : Text.firstOperator? Operation.symbols (operation.symbol ++ rest) =
      some operation.symbol := by
    cases operation <;> rfl
  rw [operatorAt?, hfirst, Option.filter_some, List.drop_left]
  cases isSign operation.symbol reversed rest <;> rfl

/-- No operation stands in a text without the characters of operations. -/
theorem unbroken_of_forall_not_mem {reversed text following : Text}
    (h : ∀ c ∈ text, [c] ∉ Operation.symbols) :
    Unbroken Operation.symbols reversed text following := by
  apply Text.unbroken_of_forall_not_prefix
  intro symbol hmem suffix hsuffix hne _ hopens
  obtain ⟨operation, -, rfl⟩ := List.mem_map.1 hmem
  obtain ⟨c, tail, rfl⟩ := List.exists_cons_of_ne_nil hne
  have hsymbol : operation.symbol = [c] := by
    cases operation <;> simpa [Operation.symbol] using hopens
  rw [hsymbol] at hmem
  exact h c (hsuffix.subset (by simp)) hmem

/-- No digit and no point is the symbol of an operation. -/
theorem singleton_not_mem_of_isDigitOrPoint {c : Char} (h : isDigitOrPoint c = true) :
    [c] ∉ Operation.symbols := by
  rw [singleton_mem_symbols]
  rintro (rfl | rfl | rfl | rfl) <;> exact absurd h (by decide)

/-- No letter is the symbol of an operation. -/
theorem singleton_not_mem_of_isLetter {c : Char} (h : IsLetter c) : [c] ∉ Operation.symbols := by
  rw [singleton_mem_symbols]
  rintro (rfl | rfl | rfl | rfl) <;> exact absurd h (by decide)

/-- A sign belongs to the piece that admits it when a number follows. -/
theorem unbroken_sign {reversed sign following : Text} (hsign : IsSign sign)
    (hreversed : admitsSign reversed = true) (hfollowing : opensNumber following = true) :
    Unbroken Operation.symbols reversed sign following := by
  have hnone (operation : Operation) (hsymbol : operation = .add ∨ operation = .sub) :
      operatorAt? Operation.symbols reversed (operation.symbol ++ following) = none := by
    rw [operatorAt?_symbol_append, if_pos]
    rcases hsymbol with rfl | rfl <;> simp [isSign, Operation.symbol, hreversed, hfollowing]
  rcases hsign with rfl | rfl | rfl
  · trivial
  · exact ⟨hnone .add (.inl rfl), trivial⟩
  · exact ⟨hnone .sub (.inr rfl), trivial⟩

/-! ## Numerals in a token -/

/-- What opens a number opens one with more text behind it. -/
theorem opensNumber_append {text : Text} (h : opensNumber text = true) (rest : Text) :
    opensNumber (text ++ rest) = true := by
  cases text with
  | nil => exact absurd h (by decide)
  | cons c text => exact h

/-- An exponent belongs to the piece of its mantissa. -/
theorem unbroken_exponent {reversed exponent following : Text} {c : Char}
    (hexponent : IsExponent exponent) (hc : isDigitOrPoint c = true) :
    Unbroken Operation.symbols (c :: reversed) exponent following := by
  cases hexponent with
  | absent => trivial
  | @present mark sign digits hmark hsign hne hdigits =>
    have hdigit {d : Char} (hd : d ∈ digits) : isDigitOrPoint d = true :=
      Numeral.isDigitOrPoint_iff.2 (.inl (hdigits d hd))
    have hmarkSymbol : [mark] ∉ Operation.symbols := by
      rcases hmark with rfl | rfl <;> decide
    have hadmits : admitsSign (mark :: c :: reversed) = true := by
      rcases hmark with rfl | rfl <;> simp [admitsSign, hc]
    have hopens : opensNumber (digits ++ following) = true := by
      obtain ⟨d, rest, rfl⟩ := List.exists_cons_of_ne_nil hne
      exact hdigit (by simp)
    have hmarkUnbroken : Unbroken Operation.symbols (c :: reversed) [mark]
        (sign ++ digits ++ following) :=
      unbroken_of_forall_not_mem (by simpa using hmarkSymbol)
    show Unbroken Operation.symbols (c :: reversed) ([mark] ++ (sign ++ digits)) following
    rw [Text.unbroken_append, Text.unbroken_append]
    refine ⟨hmarkUnbroken, unbroken_sign hsign hadmits hopens, ?_⟩
    exact unbroken_of_forall_not_mem fun d hd => singleton_not_mem_of_isDigitOrPoint (hdigit hd)

/-- The body of a numeral belongs to one piece. -/
theorem unbroken_body {reversed body following : Text} (hbody : IsBody body) :
    Unbroken Operation.symbols reversed body following := by
  cases hbody with
  | word hword =>
    exact unbroken_of_forall_not_mem fun c hc =>
      singleton_not_mem_of_isLetter (Numeral.isLetter_of_mem_word hword hc)
  | @decimal mantissa exponent hmantissa hexponent =>
    have hmember {c : Char} (hc : c ∈ mantissa) : isDigitOrPoint c = true :=
      hmantissa.isDigitOrPoint_of_mem hc
    rw [Text.unbroken_append]
    refine ⟨unbroken_of_forall_not_mem fun c hc =>
      singleton_not_mem_of_isDigitOrPoint (hmember hc), ?_⟩
    -- the exponent mark follows the last character of the mantissa
    have hne : mantissa.reverse ≠ [] := by simpa using hmantissa.ne_nil
    obtain ⟨c, front, hlast⟩ := List.exists_cons_of_ne_nil hne
    have hc : c ∈ mantissa := by
      rw [← List.mem_reverse, hlast]
      simp
    rw [hlast, List.cons_append]
    exact unbroken_exponent hexponent (hmember hc)

/-- A text of which the leading sign, if it has one, is followed by a digit or a point. -/
def SignOpensNumber (text : Text) : Prop :=
  ∀ c rest, text = c :: rest → c = '+' ∨ c = '-' → opensNumber rest = true

/-- A numeral that is an operand. -/
structure IsOperand (text : Text) : Prop where
  /-- The text is a numeral. -/
  isNumeral : IsNumeral text
  /-- A sign in front is followed by a digit or a point. -/
  signOpensNumber : SignOpensNumber text

/-- A body is an operand, and so is a sign with a body that opens a number. -/
theorem isOperand_append {sign body : Text} (hsign : IsSign sign) (hbody : IsBody body)
    (hopens : sign = [] ∨ opensNumber body = true) : IsOperand (sign ++ body) := by
  refine ⟨⟨sign, body, rfl, hsign, hbody⟩, ?_⟩
  intro c rest hcons hc
  rcases hsign with rfl | rfl | rfl
  · -- a body starts with no sign
    obtain ⟨first, others, rfl, hfirst⟩ := hbody.exists_cons
    obtain rfl : first = c := (List.cons.inj hcons).1
    rcases hc with rfl | rfl <;> exact absurd hfirst (by decide)
  · obtain rfl : body = rest := (List.cons.inj hcons).2
    exact hopens.resolve_left (by simp)
  · obtain rfl : body = rest := (List.cons.inj hcons).2
    exact hopens.resolve_left (by simp)

/-- An operand that opens a piece belongs to it. -/
theorem IsOperand.unbroken {text : Text} (h : IsOperand text) (following : Text) :
    Unbroken Operation.symbols [] text following := by
  obtain ⟨⟨sign, body, rfl, hsign, hbody⟩, hopens⟩ := h
  rw [Text.unbroken_append]
  refine ⟨?_, unbroken_body hbody⟩
  rcases hsign with rfl | rfl | rfl
  · trivial
  · have hnumber := hopens '+' body rfl (.inl rfl)
    exact unbroken_sign (.inr (.inl rfl)) rfl (opensNumber_append hnumber following)
  · have hnumber := hopens '-' body rfl (.inr rfl)
    exact unbroken_sign (.inr (.inr rfl)) rfl (opensNumber_append hnumber following)

/-- A numeral in front of a `+` or `-` does not make it a sign. -/
theorem admitsSign_reverse_of_isNumeral {text : Text} (h : IsNumeral text) :
    admitsSign text.reverse = false := by
  obtain ⟨front, c, rfl, hlower, hupper⟩ := h.exists_last
  rw [List.reverse_append, List.reverse_singleton, List.singleton_append]
  cases front.reverse with
  | nil => rfl
  | cons before others => simp [admitsSign, hlower, hupper]

end TypedVars.Arithmetic
