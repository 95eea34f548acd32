import Mathlib.Data.List.Forall2
import TypedVars.Proofs.Text.Division

/-!
# The places of pieces

The pieces of a token can be told without taking it apart from left to right, by what may stand at
each of its places. An operator piece stands where it is the first of the list that the rest of the
token starts with, and is no sign; within a plain piece there is no such place. These conditions
leave one choice of pieces for every token, and the division finds it.
-/

set_option autoImplicit false

namespace TypedVars.Text

variable {operators : List Text}

/-! ## Operators and signs at a place -/

/-- The first operator of a list that a text starts with. -/
def FirstMatch (operators : List Text) (text symbol : Text) : Prop :=
  ∃ earlier later, operators = earlier ++ symbol :: later ∧ symbol <+: text ∧
    ∀ other ∈ earlier, ¬ other <+: text

/-- A `+` or `-` is a sign when a digit or a point follows it, and nothing stands in front of it or
the mark of an exponent, directly behind a digit or a point. -/
def SignBetween (symbol before after : Text) : Prop :=
  (symbol = ['+'] ∨ symbol = ['-']) ∧
    (before = [] ∨ ∃ front c mark, before = front ++ [c, mark] ∧ isDigitOrPoint c = true ∧
      (mark = 'e' ∨ mark = 'E')) ∧
    ∃ c rest, after = c :: rest ∧ isDigitOrPoint c = true

/-- An operator that is no sign divides a token in front of its rest. -/
def BreaksAt (operators : List Text) (before rest symbol : Text) : Prop :=
  FirstMatch operators rest symbol ∧
    ∀ after, rest = symbol ++ after → ¬ SignBetween symbol before after

/-- A token goes on in its plain piece: no operator opens its rest, or a sign does. -/
def GoesOnAt (operators : List Text) (before rest : Text) : Prop :=
  (∀ symbol ∈ operators, ¬ symbol <+: rest) ∨
    ∃ symbol after, rest = symbol ++ after ∧ FirstMatch operators rest symbol ∧
      SignBetween symbol before after

/-- A sign is admitted at the start, and behind a digit or a point with the mark of an exponent. -/
theorem admitsSign_iff (reversed : Text) :
    admitsSign reversed = true ↔
      reversed.reverse = [] ∨ ∃ front c mark, reversed.reverse = front ++ [c, mark] ∧
        isDigitOrPoint c = true ∧ (mark = 'e' ∨ mark = 'E') := by
  constructor
  · intro h
    match reversed with
    | [] => exact .inl rfl
    | [c] => simp [admitsSign] at h
    | mark :: c :: rest =>
      obtain ⟨hmark, hc⟩ : (mark = 'e' ∨ mark = 'E') ∧ isDigitOrPoint c = true := by
        simpa [admitsSign] using h
      exact .inr ⟨rest.reverse, c, mark, by simp, hc, hmark⟩
  · rintro (hnil | ⟨front, c, mark, hreversed, hc, hmark⟩)
    · rw [List.reverse_eq_nil_iff.1 hnil]
      rfl
    · obtain rfl : reversed = mark :: c :: front.reverse := by
        rw [← List.reverse_reverse reversed, hreversed]
        simp
      simpa [admitsSign, hc] using hmark

/-- A number opens with a digit or a point. -/
theorem opensNumber_iff (text : Text) :
    opensNumber text = true ↔ ∃ c rest, text = c :: rest ∧ isDigitOrPoint c = true := by
  cases text with
  | nil => simp [opensNumber]
  | cons c rest => simp [opensNumber]

/-- A symbol is kept as a sign by what stands in front of it and behind it. -/
theorem isSign_iff (symbol reversed after : Text) :
    isSign symbol reversed after = true ↔ SignBetween symbol reversed.reverse after := by
  unfold isSign SignBetween
  rw [Bool.and_eq_true, Bool.and_eq_true, Bool.or_eq_true, beq_iff_eq, beq_iff_eq,
    admitsSign_iff, opensNumber_iff, and_assoc]

section

variable (h : [] ∉ operators)

include h

/-- The operator found at the start is the first match of the list. -/
theorem firstOperator?_eq_some_iff (text symbol : Text) :
    firstOperator? operators text = some symbol ↔ FirstMatch operators text symbol := by
  have hopens : ∀ other ∈ operators,
      (!other.isEmpty && other.isPrefixOf text) = true ↔ other <+: text := by
    intro other hother
    have hne : other ≠ [] := fun hnil => h (hnil ▸ hother)
    simp [hne]
  unfold firstOperator? FirstMatch
  rw [List.find?_eq_some_iff_append]
  constructor
  · rintro ⟨hsymbol, earlier, later, rfl, hearlier⟩
    refine ⟨earlier, later, rfl, (hopens symbol (by simp)).1 hsymbol, ?_⟩
    intro other hother hstarts
    have hnot := hearlier other hother
    rw [(hopens other (by simp [hother])).2 hstarts] at hnot
    simp at hnot
  · rintro ⟨earlier, later, rfl, hsymbol, hearlier⟩
    refine ⟨(hopens symbol (by simp)).2 hsymbol, earlier, later, rfl, ?_⟩
    intro other hother
    rw [Bool.not_eq_true', Bool.eq_false_iff]
    intro hmatch
    exact hearlier other hother ((hopens other (by simp [hother])).1 hmatch)

/-- An operator is found at a place when it breaks the token there. -/
theorem operatorAt?_eq_some_iff (reversed symbol after : Text) :
    operatorAt? operators reversed (symbol ++ after) = some symbol ↔
      BreaksAt operators reversed.reverse (symbol ++ after) symbol := by
  unfold operatorAt? BreaksAt
  rw [Option.filter_eq_some_iff, firstOperator?_eq_some_iff h, List.drop_left, Bool.not_eq_true',
    ← Bool.not_eq_true, isSign_iff]
  simp

/-- No operator is found at a place when the token goes on there. -/
theorem operatorAt?_eq_none_iff (reversed text : Text) :
    operatorAt? operators reversed text = none ↔ GoesOnAt operators reversed.reverse text := by
  unfold operatorAt? GoesOnAt
  rw [Option.filter_eq_none_iff]
  constructor
  · intro hsigns
    cases hfirst : firstOperator? operators text with
    | none =>
      left
      intro symbol hsymbol hstarts
      have hnot := List.find?_eq_none.1 hfirst symbol hsymbol
      have hne : symbol ≠ [] := fun hnil => h (hnil ▸ hsymbol)
      simp [hne, hstarts] at hnot
    | some symbol =>
      have hmatch := (firstOperator?_eq_some_iff h text symbol).1 hfirst
      obtain ⟨_, _, _, ⟨after, rfl⟩, _⟩ := id hmatch
      have hsign := hsigns symbol hfirst
      rw [List.drop_left, Bool.not_eq_true, Bool.not_eq_false', isSign_iff] at hsign
      exact .inr ⟨symbol, after, rfl, hmatch, hsign⟩
  · rintro (hnone | ⟨symbol, after, rfl, hmatch, hsign⟩) found hfound
    · obtain ⟨earlier, later, rfl, hstarts, -⟩ := (firstOperator?_eq_some_iff h _ _).1 hfound
      exact absurd hstarts (hnone found (by simp))
    · rw [(firstOperator?_eq_some_iff h _ _).2 hmatch, Option.some.injEq] at hfound
      subst hfound
      rw [List.drop_left, Bool.not_eq_true, Bool.not_eq_false', isSign_iff]
      exact hsign

end

/-! ## Labellings -/

/-- The text behind the last operator of some pieces. -/
def sinceOperator (all : List Piece) : Text :=
  all.foldl (fun before piece =>
    match piece with
    | .plain text => before ++ text
    | .operator _ => []) []

/-- What holds of a piece between the earlier and the later ones of its token. A plain piece is not
empty, is followed by no plain one, and goes on at every place in it. An operator is not empty and
breaks the token at its place. -/
def Piece.StandsBetween (operators : List Text) (earlier later : List Piece) : Piece → Prop
  | .plain text => text ≠ [] ∧ (∀ next, later.head? ≠ some (.plain next)) ∧
      ∀ left right, text = left ++ right → right ≠ [] →
        GoesOnAt operators (sinceOperator earlier ++ left) (right ++ later.flatMap Piece.text)
  | .operator symbol => symbol ≠ [] ∧
      BreaksAt operators (sinceOperator earlier) (symbol ++ later.flatMap Piece.text) symbol

/-- Labelled pieces that make up a token, each of them as it has to be at its place. -/
structure IsLabelling (operators : List Text) (token : Text) (all : List Piece) : Prop where
  flatMap_text : all.flatMap Piece.text = token
  standsBetween : ∀ earlier piece later, all = earlier ++ piece :: later →
    piece.StandsBetween operators earlier later

/-- What holds at all places of a list holds at the first one and at those behind it. -/
theorem forall_places_cons {P : List Piece → Piece → List Piece → Prop} {first : Piece}
    {others : List Piece} :
    (∀ earlier piece later, first :: others = earlier ++ piece :: later → P earlier piece later) ↔
      P [] first others ∧ ∀ earlier piece later, others = earlier ++ piece :: later →
        P (first :: earlier) piece later := by
  constructor
  · intro h
    refine ⟨h [] first others rfl, ?_⟩
    rintro earlier piece later rfl
    exact h (first :: earlier) piece later rfl
  · rintro ⟨hfirst, hothers⟩ earlier piece later heq
    cases earlier with
    | nil =>
      obtain ⟨rfl, rfl⟩ := List.cons.inj heq
      exact hfirst
    | cons head earlier =>
      obtain ⟨rfl, rfl⟩ := List.cons.inj heq
      exact hothers earlier piece later rfl

/-- Only the empty token is labelled with no pieces. -/
theorem isLabelling_nil {token : Text} : IsLabelling operators token [] ↔ token = [] := by
  constructor
  · intro h
    exact h.flatMap_text.symm
  · rintro rfl
    exact ⟨rfl, by simp⟩

/-- A labelling that starts with an operator breaks the token there and labels the rest. -/
theorem isLabelling_operator_cons {symbol token : Text} {others : List Piece} :
    IsLabelling operators token (.operator symbol :: others) ↔
      ∃ rest, token = symbol ++ rest ∧ symbol ≠ [] ∧
        BreaksAt operators [] (symbol ++ rest) symbol ∧ IsLabelling operators rest others := by
  -- what stands in front of an operator does not matter behind it, so the other places are the same
  constructor
  · rintro ⟨rfl, hplaces⟩
    obtain ⟨⟨hne, hbreaks⟩, hothers⟩ := forall_places_cons.1 hplaces
    exact ⟨_, rfl, hne, hbreaks, rfl, hothers⟩
  · rintro ⟨rest, rfl, hne, hbreaks, rfl, hothers⟩
    exact ⟨rfl, forall_places_cons.2 ⟨⟨hne, hbreaks⟩, hothers⟩⟩

/-- Every place of a text in front of others goes on when the text is unbroken there. -/
theorem unbroken_iff (h : [] ∉ operators) {reversed text following : Text} :
    Unbroken operators reversed text following ↔
      ∀ left right, text = left ++ right → right ≠ [] →
        GoesOnAt operators (reversed.reverse ++ left) (right ++ following) := by
  induction text generalizing reversed with
  | nil =>
    refine iff_of_true trivial ?_
    intro left right hnil hright
    exact absurd (List.append_eq_nil_iff.1 hnil.symm).2 hright
  | cons c text ih =>
    rw [Unbroken, ih, operatorAt?_eq_none_iff h]
    constructor
    · rintro ⟨hfirst, hrest⟩ left right heq hright
      cases left with
      | nil =>
        obtain rfl : c :: text = right := heq
        rwa [List.append_nil]
      | cons d left =>
        obtain ⟨rfl, rfl⟩ := List.cons.inj heq
        simpa using hrest left right rfl hright
    · intro hplaces
      constructor
      · simpa using hplaces [] (c :: text) rfl (by simp)
      · intro left right heq hright
        simpa using hplaces (c :: left) right (by rw [heq]; rfl) hright

/-- A labelling is a division. -/
theorem division_of_isLabelling (h : [] ∉ operators) {token : Text} {all : List Piece}
    (hall : IsLabelling operators token all) : Division operators token all := by
  match all with
  | [] =>
    rw [isLabelling_nil.1 hall]
    exact .empty
  | .operator symbol :: others =>
    obtain ⟨rest, rfl, -, hbreaks, hothers⟩ := isLabelling_operator_cons.1 hall
    exact .operator ((operatorAt?_eq_some_iff h [] symbol rest).2 hbreaks)
      (division_of_isLabelling h hothers)
  | [.plain text] =>
    obtain ⟨rfl, hplaces⟩ := hall
    obtain ⟨hne, -, hgoes⟩ := hplaces [] _ [] rfl
    simpa [Piece.text] using Division.plain hne ((unbroken_iff h).2 hgoes)
  | .plain text :: .plain next :: others =>
    obtain ⟨-, hnext, -⟩ := hall.standsBetween [] _ _ rfl
    exact absurd rfl (hnext next)
  | .plain text :: .operator symbol :: others =>
    obtain ⟨rfl, hplaces⟩ := hall
    obtain ⟨⟨hne, -, hgoes⟩, hbehind⟩ := forall_places_cons.1 hplaces
    obtain ⟨⟨-, hbreaks⟩, hothers⟩ := forall_places_cons.1 hbehind
    refine .plainOperator hne ((unbroken_iff h).2 hgoes) ?_
      (division_of_isLabelling h ⟨rfl, hothers⟩)
    rw [operatorAt?_eq_some_iff h, List.reverse_reverse]
    exact hbreaks

/-- A division is a labelling. -/
theorem Division.isLabelling (h : [] ∉ operators) {token : Text} {all : List Piece}
    (hall : Division operators token all) : IsLabelling operators token all := by
  induction hall with
  | empty => exact isLabelling_nil.2 rfl
  | plain nonempty unbroken =>
    refine ⟨by simp [Piece.text], forall_places_cons.2 ⟨⟨nonempty, by simp, ?_⟩, by simp⟩⟩
    exact (unbroken_iff h).1 unbroken
  | @operator symbol rest others found _ ih =>
    obtain ⟨-, hne, -⟩ := spec_of_operatorAt? found
    exact isLabelling_operator_cons.2
      ⟨rest, rfl, hne, (operatorAt?_eq_some_iff h [] symbol rest).1 found, ih⟩
  | @plainOperator text symbol rest others nonempty unbroken found _ ih =>
    obtain ⟨rfl, hothers⟩ := ih
    obtain ⟨-, hne, -⟩ := spec_of_operatorAt? found
    rw [operatorAt?_eq_some_iff h, List.reverse_reverse] at found
    refine ⟨rfl, forall_places_cons.2 ⟨⟨nonempty, by simp, ?_⟩, ?_⟩⟩
    · exact (unbroken_iff h).1 unbroken
    · exact forall_places_cons.2 ⟨⟨hne, found⟩, hothers⟩

/-- The pieces of a token are its only labelling. -/
theorem isLabelling_iff (h : [] ∉ operators) {token : Text} {all : List Piece} :
    IsLabelling operators token all ↔ pieces operators token = all := by
  rw [← division_iff]
  constructor
  · exact division_of_isLabelling h
  · exact Division.isLabelling h

/-- The tokens have one labelling each, and their pieces in order are those of the labellings. -/
theorem splitOperators_labelling (h : [] ∉ operators) (tokens : List Text) :
    ∃ labellings, List.Forall₂ (IsLabelling operators) tokens labellings ∧
      (∀ others, List.Forall₂ (IsLabelling operators) tokens others → others = labellings) ∧
      splitOperators operators tokens =
        labellings.flatMap fun all => all.map Piece.text := by
  refine ⟨tokens.map (pieces operators), ?_, ?_, ?_⟩
  · rw [List.forall₂_map_right_iff, List.forall₂_same]
    intro token _
    exact (isLabelling_iff h).2 rfl
  · intro others hothers
    induction hothers with
    | nil => rfl
    | cons hall _ ih => rw [List.map_cons, (isLabelling_iff h).1 hall, ih]
  · rw [List.flatMap_map]
    rfl

/-- Operators that open one another and one of two characters, with signs at both ends. -/
theorem splitOperators_labelling_overlap :
    let operators : List Text := ["-".toList, "=".toList, "==".toList, "é→".toList]
    let tokens : List Text := ["-1.e-5--2".toList, "a==é→é-".toList]
    [] ∉ operators ∧
      ∃ labellings, List.Forall₂ (IsLabelling operators) tokens labellings ∧
        (∀ others, List.Forall₂ (IsLabelling operators) tokens others → others = labellings) ∧
        (labellings.flatMap fun all => all.map Piece.text) =
          ["-1.e-5".toList, "-".toList, "-2".toList, "a".toList, "=".toList, "=".toList,
            "é→".toList, "é".toList, "-".toList] := by
  intro operators tokens
  have h : [] ∉ operators := by decide
  obtain ⟨labellings, hall, honly, hsplit⟩ := splitOperators_labelling h tokens
  refine ⟨h, labellings, hall, honly, ?_⟩
  rw [← hsplit]
  decide +kernel

end TypedVars.Text
