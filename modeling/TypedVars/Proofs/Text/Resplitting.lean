import TypedVars.Arithmetic
import TypedVars.Condition.Operator
import TypedVars.Proofs.Text.Placement

/-!
# Dividing twice

A piece that is divided by itself has lost the text behind it, at which the choice of an operator
and of a sign looked as well. It still stays whole: the first operator that matches a shorter text
is the one that matched with the rest behind it, and a sign keeps its digit, because an operator
that could take the digit away would begin with it.
-/

set_option autoImplicit false

namespace TypedVars.Text

open Arithmetic (Operation)
open Condition (Operator)

variable {operators : List Text}

/-- No operator is empty or begins as a number does. -/
def NumberFree (operators : List Text) : Prop :=
  ∀ symbol ∈ operators, symbol ≠ [] ∧ opensNumber symbol = false

instance (operators : List Text) : Decidable (NumberFree operators) :=
  inferInstanceAs (Decidable (∀ symbol ∈ operators, symbol ≠ [] ∧ opensNumber symbol = false))

/-- The first operator of a text is that of its front as well, if it lies within the front. -/
theorem firstOperator?_of_append {front rest symbol : Text}
    (hfirst : firstOperator? operators (front ++ rest) = some symbol) (h : symbol <+: front) :
    firstOperator? operators front = some symbol := by
  unfold firstOperator? at hfirst ⊢
  rw [List.find?_eq_some_iff_append] at hfirst ⊢
  obtain ⟨hsymbol, earlier, later, rfl, hearlier⟩ := hfirst
  refine ⟨?_, earlier, later, rfl, ?_⟩
  · rw [Bool.and_eq_true] at hsymbol ⊢
    exact ⟨hsymbol.1, List.isPrefixOf_iff_prefix.2 h⟩
  · intro other hother
    have hnot := hearlier other hother
    rw [Bool.not_eq_true', Bool.and_eq_false_iff] at hnot ⊢
    apply hnot.imp_right
    intro hlong
    rw [Bool.eq_false_iff] at hlong ⊢
    intro hshort
    have hstarts := List.isPrefixOf_iff_prefix.1 hshort
    exact hlong (List.isPrefixOf_iff_prefix.2 (hstarts.trans (List.prefix_append front rest)))

/-- Where no operator is found, none is found in less text. -/
theorem firstOperator?_eq_none_of_append {front rest : Text}
    (h : firstOperator? operators (front ++ rest) = none) :
    firstOperator? operators front = none := by
  unfold firstOperator? at h ⊢
  rw [List.find?_eq_none] at h ⊢
  intro symbol hsymbol hmatch
  apply h symbol hsymbol
  rw [Bool.and_eq_true, List.isPrefixOf_iff_prefix] at hmatch ⊢
  exact ⟨hmatch.1, hmatch.2.trans (List.prefix_append front rest)⟩

/-- An operator of a token is one by itself: nothing behind it makes it a sign. -/
theorem operatorAt?_self {reversed symbol rest : Text}
    (h : operatorAt? operators reversed (symbol ++ rest) = some symbol) :
    operatorAt? operators [] symbol = some symbol := by
  unfold operatorAt? at h ⊢
  obtain ⟨hfirst, -⟩ := Option.filter_eq_some_iff.1 h
  rw [firstOperator?_of_append hfirst (List.prefix_refl symbol), Option.filter_some,
    List.drop_length]
  simp [isSign, opensNumber]

/-- Only the first character decides whether a number opens. -/
theorem opensNumber_append_of_ne_nil {front : Text} (h : front ≠ []) (rest : Text) :
    opensNumber (front ++ rest) = opensNumber front := by
  cases front with
  | nil => exact absurd rfl h
  | cons c front => rfl

/-- A sign is a single character with a number behind it. -/
theorem eq_singleton_of_isSign {symbol reversed after : Text}
    (h : isSign symbol reversed after = true) :
    (∃ c, symbol = [c]) ∧ opensNumber after = true := by
  obtain ⟨hsymbol, -, hafter⟩ := (isSign_iff symbol reversed after).1 h
  constructor
  · rcases hsymbol with rfl | rfl
    · exact ⟨'+', rfl⟩
    · exact ⟨'-', rfl⟩
  · exact (opensNumber_iff after).2 hafter

/-- A place without an operator has none either when the text behind is cut off, unless that text
opens a number. -/
theorem operatorAt?_eq_none_of_append {reversed front rest : Text} (hfront : front ≠ [])
    (hrest : opensNumber rest = false)
    (h : operatorAt? operators reversed (front ++ rest) = none) :
    operatorAt? operators reversed front = none := by
  unfold operatorAt? at h ⊢
  cases hfirst : firstOperator? operators (front ++ rest) with
  | none => rw [firstOperator?_eq_none_of_append hfirst, Option.filter_none]
  | some symbol =>
    have hsign : isSign symbol reversed ((front ++ rest).drop symbol.length) = true := by
      simpa using Option.filter_eq_none_iff.1 h symbol hfirst
    obtain ⟨⟨c, rfl⟩, hopens⟩ := eq_singleton_of_isSign hsign
    have hstarts : [c] <+: front ++ rest := by
      have hmatch := List.find?_some hfirst
      rw [Bool.and_eq_true, List.isPrefixOf_iff_prefix] at hmatch
      exact hmatch.2
    obtain ⟨d, front, rfl⟩ := List.exists_cons_of_ne_nil hfront
    obtain rfl : c = d := by simpa using hstarts
    rw [List.length_singleton, List.cons_append, List.drop_one, List.tail_cons] at hsign hopens
    -- the number behind the sign begins within the front
    have hne : front ≠ [] := by
      rintro rfl
      rw [List.nil_append, hrest] at hopens
      exact absurd hopens (by decide)
    have hcut : isSign [c] reversed front = true := by
      unfold isSign at hsign ⊢
      rwa [opensNumber_append_of_ne_nil hne] at hsign
    rw [firstOperator?_of_append hfirst (List.prefix_append [c] front), Option.filter_some]
    simp [hcut]

/-- A text that is not broken in front of other text is not broken alone, if no number opens
there. -/
theorem Unbroken.cut {reversed text rest : Text} (hrest : opensNumber rest = false)
    (h : Unbroken operators reversed text rest) : Unbroken operators reversed text [] := by
  induction text generalizing reversed with
  | nil => trivial
  | cons c text ih =>
    obtain ⟨hnone, htext⟩ := h
    refine ⟨?_, ih htext⟩
    rw [List.append_nil]
    exact operatorAt?_eq_none_of_append (List.cons_ne_nil c text) hrest hnone

/-- No number opens with an operator of a list free of numbers. -/
theorem NumberFree.opensNumber_append (h : NumberFree operators) {symbol : Text}
    (hsymbol : symbol ∈ operators) (rest : Text) : opensNumber (symbol ++ rest) = false := by
  obtain ⟨hne, hopens⟩ := h symbol hsymbol
  rw [opensNumber_append_of_ne_nil hne, hopens]

/-- Every piece of a token stays whole by itself. -/
theorem Division.whole (h : NumberFree operators) {token : Text} {all : List Piece}
    (hall : Division operators token all) : ∀ piece ∈ all, Whole operators piece.text := by
  induction hall with
  | empty => simp
  | plain nonempty unbroken =>
    exact List.forall_mem_singleton.2 (whole_of_unbroken nonempty unbroken)
  | operator found _ ih =>
    exact List.forall_mem_cons.2 ⟨whole_of_operatorAt? (operatorAt?_self found), ih⟩
  | plainOperator nonempty unbroken found _ ih =>
    obtain ⟨hsymbol, -, -⟩ := spec_of_operatorAt? found
    have hplain := unbroken.cut (h.opensNumber_append hsymbol _)
    refine List.forall_mem_cons.2 ⟨whole_of_unbroken nonempty hplain, ?_⟩
    exact List.forall_mem_cons.2 ⟨whole_of_operatorAt? (operatorAt?_self found), ih⟩

/-- What a list free of numbers splits tokens into stays whole. -/
theorem whole_of_mem_splitOperators (h : NumberFree operators) {tokens : List Text} {text : Text}
    (htext : text ∈ splitOperators operators tokens) : Whole operators text := by
  obtain ⟨token, -, hpiece⟩ := List.mem_flatMap.1 htext
  obtain ⟨piece, hmem, rfl⟩ := List.mem_map.1 hpiece
  exact (division_pieces operators token).whole h piece hmem

/-- Pieces are not divided again, and both lists of operators in use are of this kind. -/
theorem splitOperators_splitOperators :
    (∀ operators, NumberFree operators → ∀ tokens,
      splitOperators operators (splitOperators operators tokens) =
        splitOperators operators tokens) ∧
      NumberFree Operation.symbols ∧ NumberFree Operator.symbols := by
  refine ⟨?_, by decide, by decide⟩
  intro operators h tokens
  apply splitOperators_of_whole
  intro text htext
  exact whole_of_mem_splitOperators h htext

/-- Signs and exponents stay whole among operators that open one another. -/
theorem splitOperators_splitOperators_exponent :
    let operators : List Text := [['-'], ['='], ['=', '=']]
    let once := splitOperators operators ["-1.e-5--2==".toList]
    NumberFree operators ∧
      once = ["-1.e-5".toList, ['-'], ['-', '2'], ['='], ['=']] ∧
      splitOperators operators once = once := by
  intro operators once
  have h : NumberFree operators := by decide
  exact ⟨h, by decide +kernel, splitOperators_splitOperators.1 operators h _⟩

/-- An operator that begins a number may take it away from its sign. -/
example : splitOperators [['-'], ['.']] ["1e-.5".toList] = ["1e-".toList, ['.'], ['5']] ∧
    splitOperators [['-'], ['.']] ["1e-".toList] = ["1e".toList, ['-']] := by decide +kernel

end TypedVars.Text
