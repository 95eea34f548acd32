import TypedVars.Proofs.Arithmetic.Triple
import TypedVars.Proofs.Condition.RoundTrip
import TypedVars.Proofs.Text.Occurrence
import TypedVars.Proofs.Text.Placement

/-!
# Operators in a text and in its pieces

Whether a text bears an operator is asked of the text as it stands, while what is evaluated are the
pieces of its words. The two agree: no symbol reaches across a blank, a word without an operator
among its pieces is a single plain piece, and a symbol occurs in a plain piece only where there is a
sign. So what has a value bears an operator.
-/

set_option autoImplicit false

namespace TypedVars

namespace Text

variable {operators : List Text} {text token symbol : Text}

/-- One of the operators stands in a piece and is a sign there. -/
def KeepsSign (operators : List Text) (piece : Text) : Prop :=
  ∃ before, ∃ symbol ∈ operators, ∃ after,
    piece = before ++ (symbol ++ after) ∧ SignBetween symbol before after

/-- A token is a single plain piece unless it has an operator among its pieces. -/
theorem Division.operator_mem_or_unbroken {all : List Piece} (h : Division operators token all)
    (hne : token ≠ []) :
    (∃ symbol ∈ operators, .operator symbol ∈ all) ∨
      (all = [.plain token] ∧ Unbroken operators [] token []) := by
  cases h with
  | empty => exact absurd rfl hne
  | plain _ unbroken => exact .inr ⟨rfl, unbroken⟩
  | operator found _ =>
    obtain ⟨hsymbol, -⟩ := spec_of_operatorAt? found
    exact .inl ⟨_, hsymbol, by simp⟩
  | plainOperator _ _ found _ =>
    obtain ⟨hsymbol, -⟩ := spec_of_operatorAt? found
    exact .inl ⟨_, hsymbol, by simp⟩

/-- A symbol that occurs in an unbroken text begins where there is a sign. -/
theorem Unbroken.keepsSign (h : [] ∉ operators) (hunbroken : Unbroken operators [] text [])
    (hsymbol : symbol ∈ operators) (hinside : symbol <:+: text) : KeepsSign operators text := by
  obtain ⟨before, behind, rfl⟩ := hinside
  have hne : symbol ++ behind ≠ [] := by
    intro hnil
    exact h ((List.append_eq_nil_iff.1 hnil).1 ▸ hsymbol)
  have hgoes := (unbroken_iff h).1 hunbroken before (symbol ++ behind) (List.append_assoc ..) hne
  rw [List.append_nil, List.reverse_nil, List.nil_append] at hgoes
  rcases hgoes with hnone | ⟨sign, after, hsign, ⟨earlier, later, rfl, -⟩, hbetween⟩
  · exact absurd (List.prefix_append symbol behind) (hnone symbol hsymbol)
  · refine ⟨before, sign, by simp, after, ?_, hbetween⟩
    rw [List.append_assoc, hsign]

/-- The pieces of the words of a text lie within the text. -/
theorem infix_of_mem_splitOperators_words (h : token ∈ splitOperators operators (words text)) :
    token <:+: text := by
  obtain ⟨word, hword, htoken⟩ := List.mem_flatMap.1 h
  have hinside : token <:+: word := by
    rw [← flatten_texts word]
    exact List.infix_of_mem_flatten htoken
  have hwhole := ((isWord_of_mem_words hword).infix_iff_exists_mem_words text).2
    ⟨word, hword, List.infix_refl word⟩
  exact hinside.trans hwhole

/-- One of some symbols occurs in a text exactly when one is a piece of a word of it or is kept in
such a piece as a sign. -/
theorem exists_infix_iff_exists_piece (h : ∀ symbol ∈ operators, IsWord symbol) (text : Text) :
    (∃ symbol ∈ operators, symbol <:+: text) ↔
      ∃ token ∈ splitOperators operators (words text),
        token ∈ operators ∨ KeepsSign operators token := by
  have hnil : [] ∉ operators := fun hmem => (h [] hmem).1 rfl
  constructor
  · rintro ⟨symbol, hsymbol, hinside⟩
    obtain ⟨word, hword, hinside⟩ := ((h symbol hsymbol).infix_iff_exists_mem_words text).1 hinside
    have hpieces : ∀ piece ∈ pieces operators word,
        piece.text ∈ splitOperators operators (words text) := by
      intro piece hpiece
      exact List.mem_flatMap.2 ⟨word, hword, List.mem_map_of_mem hpiece⟩
    rcases (division_pieces operators word).operator_mem_or_unbroken
      (isWord_of_mem_words hword).1 with ⟨found, hfound, hmem⟩ | ⟨hall, hunbroken⟩
    · exact ⟨found, hpieces _ hmem, .inl hfound⟩
    · refine ⟨word, hpieces (.plain word) (by simp [hall]), .inr ?_⟩
      exact hunbroken.keepsSign hnil hsymbol hinside
  · rintro ⟨token, htoken, hsymbol | ⟨before, symbol, hsymbol, after, rfl, -⟩⟩
    · exact ⟨token, hsymbol, infix_of_mem_splitOperators_words htoken⟩
    · have hinside : symbol <:+: before ++ (symbol ++ after) := ⟨before, after, by simp⟩
      exact ⟨symbol, hsymbol, hinside.trans (infix_of_mem_splitOperators_words htoken)⟩

end Text

open Arithmetic (Operation)
open Condition (Operator)
open Text (KeepsSign)

/-- No operator of conditions is a sign, so none is kept as one. -/
theorem Condition.Operator.not_keepsSign_symbols (piece : Text) :
    ¬ KeepsSign Operator.symbols piece := by
  rintro ⟨before, symbol, hsymbol, after, -, hplusOrMinus, -⟩
  obtain ⟨operator, -, rfl⟩ := List.mem_map.1 hsymbol
  rcases operator with which | which <;> cases which <;> simp [Operator.symbol] at hplusOrMinus

/-- A text bears an operator of conditions exactly when one is among its pieces, and an operator of
arithmetic exactly when one is among its pieces or kept in a piece as a sign. What has an arithmetic
value bears an operator. -/
theorem bearsOperator_iff_tokens (text : Text) :
    (Condition.bearsOperator text = true ↔
        ∃ token ∈ Condition.tokens text, token ∈ Operator.symbols) ∧
      (Arithmetic.bearsOperator text = true ↔
        ∃ token ∈ Arithmetic.tokens text,
          token ∈ Operation.symbols ∨ KeepsSign Operation.symbols token) ∧
      ((Arithmetic.evaluate? text).isSome = true → Arithmetic.bearsOperator text = true) := by
  have hcondition : Condition.bearsOperator text = true ↔
      ∃ token ∈ Condition.tokens text, token ∈ Operator.symbols := by
    have hwords : ∀ symbol ∈ Operator.symbols, Text.IsWord symbol := by decide
    have hpieces := Text.exists_infix_iff_exists_piece hwords text
    simp only [Operator.not_keepsSign_symbols, or_false] at hpieces
    simp only [Condition.bearsOperator, List.any_eq_true, Text.occursIn_iff]
    exact hpieces
  have harithmetic : Arithmetic.bearsOperator text = true ↔
      ∃ token ∈ Arithmetic.tokens text,
        token ∈ Operation.symbols ∨ KeepsSign Operation.symbols token := by
    have hwords : ∀ symbol ∈ Operation.symbols, Text.IsWord symbol := by decide
    simp only [Arithmetic.bearsOperator, List.any_eq_true, Text.occursIn_iff]
    exact Text.exists_infix_iff_exists_piece hwords text
  refine ⟨hcondition, harithmetic, ?_⟩
  intro hvalue
  by_contra hbears
  rw [Arithmetic.evaluate?_eq_none_of_not_bearsOperator hbears] at hvalue
  simp at hvalue

/-- Overlapping symbols are pieces, a sign without any operator is borne, and so is the operator
between two signed operands. -/
theorem bearsOperator_iff_tokens_overlap :
    Condition.bearsOperator "a===b".toList = true ∧
      (Arithmetic.bearsOperator "1e-5".toList = true ∧
        ∀ token ∈ Arithmetic.tokens "1e-5".toList, token ∉ Operation.symbols) ∧
      ((Arithmetic.evaluate? "-1e-5*-2".toList).isSome = true ∧
        Arithmetic.bearsOperator "-1e-5*-2".toList = true) := by
  have hvalue : (Arithmetic.evaluate? "-1e-5*-2".toList).isSome = true := by decide +kernel
  refine ⟨?_, ⟨?_, by decide +kernel⟩, hvalue, (bearsOperator_iff_tokens _).2.2 hvalue⟩
  · exact (bearsOperator_iff_tokens _).1.2 ⟨['=', '='], by decide +kernel, by decide⟩
  · refine (bearsOperator_iff_tokens _).2.1.2 ⟨"1e-5".toList, by decide +kernel, .inr ?_⟩
    exact ⟨['1', 'e'], ['-'], by decide, ['5'], rfl, .inr rfl,
      .inr ⟨[], '1', 'e', rfl, by decide, .inl rfl⟩, '5', [], rfl, by decide⟩

end TypedVars
