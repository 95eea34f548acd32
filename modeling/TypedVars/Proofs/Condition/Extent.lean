import TypedVars.Proofs.Condition.Chain

/-!
# How far a condition extends

A condition is read off the front of a list of tokens as far as operators follow its literals. The
tokens that it takes are literals and operators in turn, whatever the literals look like, and a
missing last literal is `false`. It stops at the first token that stands in the place of an operator
without being one, so that no token behind that one can change what was read.
-/

set_option autoImplicit false

namespace TypedVars.Condition

open Chain (evenPlaces oddPlaces)

/-- The symbols of operators are the texts that name one. -/
theorem Operator.mem_symbols_iff {text : Text} :
    text ∈ symbols ↔ (ofSymbol? text).isSome = true := by
  rw [← contains_symbols_eq, List.contains_iff_mem]

namespace Expression

/-- The tokens that a condition takes are the literals and operators of its chain by place. Where
they end in an operator, nothing is left and the chain ends in `false`. -/
theorem exists_used_ofTokens (tokens : List Text) :
    ∃ (used : List Text) (chain : Chain), tokens = used ++ (ofTokens tokens).2 ∧
      (ofTokens tokens).1 = chain.toExpression ∧
      chain.operators.map Operator.symbol = oddPlaces used ∧
      ((used.length % 2 = 1 ∧ chain.literals = (evenPlaces used).map .ofToken) ∨
        (used.length % 2 = 0 ∧ (ofTokens tokens).2 = [] ∧
          chain.literals = (evenPlaces used).map .ofToken ++ [.boolean false])) := by
  fun_induction ofTokens tokens with
  | case1 => exact ⟨[], .single (.boolean false), rfl, rfl, rfl, .inr ⟨rfl, rfl, rfl⟩⟩
  | case2 token => exact ⟨[token], .single (.ofToken token), rfl, rfl, rfl, .inl ⟨rfl, rfl⟩⟩
  | case3 token next after operator hoperator right remaining hafter ih =>
    obtain ⟨used, chain, htokens, hchain, hoperators, hliterals⟩ := ih
    rw [hafter] at htokens hchain hliterals
    have hnext := Operator.eq_symbol_of_ofSymbol? hoperator
    refine ⟨token :: next :: used, .link (.ofToken token) operator chain, ?_, ?_, ?_, ?_⟩
    · rw [htokens]
      rfl
    · rw [show right = chain.toExpression from hchain]
      rfl
    · rw [Chain.operators, oddPlaces, List.map_cons, hoperators, hnext]
    · -- two more tokens keep the parity of their number
      have hlength : (token :: next :: used).length % 2 = used.length % 2 := by
        simp only [List.length_cons]
        omega
      rw [hlength, Chain.literals, evenPlaces, List.map_cons, List.cons_append]
      obtain ⟨hodd, hliterals⟩ | ⟨heven, hnil, hliterals⟩ := hliterals
      · exact .inl ⟨hodd, by rw [hliterals]⟩
      · exact .inr ⟨heven, hnil, by rw [hliterals]⟩
  | case4 token next after _ =>
    exact ⟨[token], .single (.ofToken token), rfl, rfl, rfl, .inl ⟨rfl, rfl⟩⟩

/-- What is left of the tokens does not start with an operator. -/
theorem not_mem_symbols_of_remaining {tokens others : List Text} {next : Text}
    (h : (ofTokens tokens).2 = next :: others) : next ∉ Operator.symbols := by
  fun_induction ofTokens tokens with
  | case1 => simp at h
  | case2 token => simp at h
  | case3 token first after operator _ right remaining hafter ih =>
    rw [hafter] at ih
    exact ih h
  | case4 token first after hnone =>
    obtain ⟨rfl, rfl⟩ := List.cons.inj h
    rw [Operator.mem_symbols_iff, hnone]
    simp

/-- Further tokens are left as well when something is left already. -/
theorem ofTokens_append {tokens : List Text} (h : (ofTokens tokens).2 ≠ []) (more : List Text) :
    ofTokens (tokens ++ more) = ((ofTokens tokens).1, (ofTokens tokens).2 ++ more) := by
  fun_induction ofTokens tokens with
  | case1 => exact absurd rfl h
  | case2 token => exact absurd rfl h
  | case3 token next after operator hoperator right remaining hafter ih =>
    rw [hafter] at ih
    rw [List.cons_append, List.cons_append, ofTokens, hoperator]
    simp only [ih h]
  | case4 token next after hnone =>
    rw [List.cons_append, List.cons_append, ofTokens, hnone]

/-- A condition takes tokens that are literals and operators by place, as many as there are, and
nests them to the right; a missing last literal is `false`. What is left, if anything, does not
start with an operator and goes on with any further tokens. -/
theorem ofTokens_extent (tokens : List Text) :
    let condition := (ofTokens tokens).1
    let remaining := (ofTokens tokens).2
    (∃ (used : List Text) (chain : Chain), tokens = used ++ remaining ∧
      condition = chain.toExpression ∧ chain.operators.map Operator.symbol = oddPlaces used ∧
      (used.length % 2 = 1 → chain.literals = (evenPlaces used).map .ofToken) ∧
      (used.length % 2 = 0 → remaining = [] ∧
        chain.literals = (evenPlaces used).map .ofToken ++ [.boolean false])) ∧
    (∀ next others, remaining = next :: others → next ∉ Operator.symbols) ∧
    (remaining ≠ [] → ∀ more, ofTokens (tokens ++ more) = (condition, remaining ++ more)) := by
  intro condition remaining
  refine ⟨?_, fun _ _ => not_mem_symbols_of_remaining, ofTokens_append⟩
  obtain ⟨used, chain, htokens, hchain, hoperators, hliterals⟩ := exists_used_ofTokens tokens
  refine ⟨used, chain, htokens, hchain, hoperators, ?_, ?_⟩
  · intro hodd
    obtain ⟨-, hliterals⟩ | ⟨heven, -⟩ := hliterals
    · exact hliterals
    · omega
  · intro heven
    obtain ⟨hodd, -⟩ | ⟨-, hnil, hliterals⟩ := hliterals
    · omega
    · exact ⟨hnil, hliterals⟩

/-- Symbols may stand for literals, and what follows a missing operator is left. -/
example : ofTokens ["==".toList, "&&".toList, "<".toList, "x".toList, "||".toList] =
    (.binary (.literal (.string "==".toList)) (.connective .and) (.literal (.string "<".toList)),
      ["x".toList, "||".toList]) := by decide

end Expression

end TypedVars.Condition
